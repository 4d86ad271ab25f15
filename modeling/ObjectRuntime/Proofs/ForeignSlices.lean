import ObjectRuntime.Proofs.Slice
import ObjectRuntime.Text.Foreign

/-! Slices for callers outside. A slice takes no run twice, so it is never longer than its text, and what fits
into a buffer on the way in does on the way out. The main statement follows the function case by case: a
status and no request where there is no slice, and otherwise one request of just the length of the slice. -/

namespace ObjectRuntime.Text

/-! ### The length of a slice -/

section Pick

variable {α : Type} {count m : Nat} {start stop step : Int}

/-- The indices that a slice takes are all different. -/
theorem Takes.nodup (hstep : step ≠ 0) (h : Takes count start stop step m) :
    ((List.range m).map fun k => (start + (k : Nat) * step).toNat).Nodup := by
  refine List.nodup_range.map_on fun j hj k hk heq => ?_
  have hle := (h.1 j (List.mem_range.1 hj)).1
  have hle' := (h.1 k (List.mem_range.1 hk)).1
  have hindex : (j : Int) * step = k * step := by omega
  exact Int.ofNat_inj.1 (mul_right_cancel₀ hstep hindex)

/-- No item is picked twice. -/
theorem Takes.pick_subperm {xs : List α} (hstep : step ≠ 0) (hcount : count ≤ xs.length)
    (h : Takes count start stop step m) : (pick xs start step m).Subperm xs := by
  have hsubset : ((List.range m).map fun k => (start + (k : Nat) * step).toNat) ⊆ List.range xs.length := by
    intro i hi
    obtain ⟨k, hk, rfl⟩ := List.mem_map.1 hi
    obtain ⟨hle, hlt, -⟩ := h.1 k (List.mem_range.1 hk)
    exact List.mem_range.2 (by omega)
  obtain ⟨is, hperm, hsub⟩ := (h.nodup hstep).subperm hsubset
  have hall : (List.range xs.length).filterMap (xs[·]?) = xs := by
    have hpick := pick_zero_one xs xs.length
    simpa [pick] using hpick
  refine ⟨is.filterMap (xs[·]?), ?_, ?_⟩
  · have hpick := hperm.filterMap (xs[·]?)
    rwa [List.filterMap_map] at hpick
  · have hsub := hsub.filterMap (xs[·]?)
    rwa [hall] at hsub

end Pick

theorem length_flatten_le {rs rs' : List (List UInt8)} (h : rs.Subperm rs') :
    rs.flatten.length ≤ rs'.flatten.length := by
  obtain ⟨ms, hperm, hsub⟩ := h
  calc rs.flatten.length
    _ = ms.flatten.length := by rw [List.length_flatten, List.length_flatten, (hperm.map _).sum_eq]
    _ ≤ rs'.flatten.length := hsub.flatten.length_le

theorem size_le_of_substring {bs out : Bytes} {start stop step : Int64} (hslice : Sliceable start stop step)
    (h : substring bs start stop step = .ok out) : out.size ≤ bs.size := by
  obtain ⟨m, htakes, hsubstring⟩ := exists_substring bs hslice
  obtain rfl := Except.ok.inj (h.symm.trans hsubstring)
  have hsubperm := htakes.pick_subperm (Checked.toInt_ne_zero hslice.step_ne_zero) (length_le_runs bs)
  have hlength := length_flatten_le hsubperm
  rwa [flatten_runs, Array.length_toList] at hlength

namespace Foreign

/-! ### Buffers -/

theorem Buffer.size_bytes_lt (buffer : Buffer) : buffer.bytes.size < UInt32.size := by
  obtain ⟨length, content⟩ := buffer
  cases content with
  | none => exact Nat.two_pow_pos 32
  | some content =>
    rw [bytes, content.size_toArray]
    exact length.toNat_lt

theorem len_eq (buffer : Buffer) : (len buffer).toInt = Text.length buffer.bytes := by
  have hle : Text.length buffer.bytes ≤ buffer.bytes.size := Array.countP_le_size
  have hlt := buffer.size_bytes_lt
  rw [len, Int64.toInt_ofNat_of_lt (by rw [UInt32.size] at hlt; omega)]

variable {provided : Nat → Nat} {buffer : Buffer} {start stop step : Int64} {out : Bytes}

theorem deliver_of_lt (h : out.size < UInt32.size) : deliver provided out =
    if provided out.size = out.size then ⟨[out.size], .returned statusOk out⟩
    else ⟨[out.size], .trapped wrongBuffer⟩ := if_pos h

theorem substr_zero_step : substr provided buffer start stop 0 = failed statusZeroStep := by
  rw [substr, substring, selection, sliceCount_zero_step]
  rfl

theorem substr_spanOverflow (hstep : step ≠ 0) (hspan : ¬ Checked.IsWord (stop.toInt - start.toInt)) :
    substr provided buffer start stop step = failed statusOverflow := by
  rw [substr, substring, selection, sliceCount_spanOverflow hstep hspan]
  rfl

/-- A slice of a buffer fits into a buffer. -/
theorem exists_substr_eq (h : Sliceable start stop step) (provided : Nat → Nat) (buffer : Buffer) :
    ∃ out, Text.substring buffer.bytes start stop step = .ok out ∧ out.size ≤ buffer.bytes.size ∧
      substr provided buffer start stop step =
        if provided out.size = out.size then ⟨[out.size], .returned statusOk out⟩
        else ⟨[out.size], .trapped wrongBuffer⟩ := by
  obtain ⟨m, -, hsubstring⟩ := exists_substring buffer.bytes h
  have hsize := size_le_of_substring h hsubstring
  refine ⟨_, hsubstring, hsize, ?_⟩
  rw [substr, hsubstring]
  exact deliver_of_lt (hsize.trans_lt buffer.size_bytes_lt)

/-- The functions for callers outside do what those within do. A slice that cannot be taken is told by its
status alone; any other is asked a buffer of its own length for, which the host must keep to. The two
remaining statuses do not come up. -/
theorem substr_refines (provided : Nat → Nat) (buffer : Buffer) (start stop step : Int64)
    (hcounted : ¬ (stop.toInt - start.toInt = -2 ^ 63 ∧ step = -1)) :
    ((len buffer).toInt = Text.length buffer.bytes ∧ ∀ n, (len (.null n)).toInt = 0) ∧
    ((∃ out, (substr provided buffer start stop step).answer = .returned 70101 out) ↔ step = 0) ∧
    ((∃ out, (substr provided buffer start stop step).answer = .returned 70102 out) ↔
      step ≠ 0 ∧ ¬ Checked.IsWord (stop.toInt - start.toInt)) ∧
    (step = 0 ∨ ¬ Checked.IsWord (stop.toInt - start.toInt) →
      ∃ status, substr provided buffer start stop step = ⟨[], .returned status #[]⟩) ∧
    (step ≠ 0 → Checked.IsWord (stop.toInt - start.toInt) →
      ∃ out, Text.substring buffer.bytes start stop step = .ok out ∧ out.size ≤ buffer.bytes.size ∧
        (substr provided buffer start stop step).requests = [out.size] ∧
        ((substr provided buffer start stop step).answer = .trapped 9700 ↔ provided out.size ≠ out.size) ∧
        (provided out.size = out.size →
          (substr provided buffer start stop step).answer = .returned 0 out)) ∧
    ∀ out, (substr provided buffer start stop step).answer ≠ .returned 70116 out ∧
      (substr provided buffer start stop step).answer ≠ .returned 70199 out := by
  refine ⟨⟨len_eq buffer, fun n => len_eq (.null n)⟩, ?_⟩
  by_cases hstep : step = 0
  · subst hstep
    rw [substr_zero_step]
    simp [failed, statusZeroStep]
  by_cases hspan : Checked.IsWord (stop.toInt - start.toInt)
  · have hsliceable : Sliceable start stop step := ⟨hstep, hspan.1, hspan.2, hcounted⟩
    obtain ⟨out, hout, hsize, heq⟩ := exists_substr_eq hsliceable provided buffer
    rw [heq, hout]
    by_cases hprovided : provided out.size = out.size
    · simp [hstep, hspan, hsize, hprovided, statusOk]
    · simp [hstep, hspan, hsize, hprovided, wrongBuffer]
  · rw [substr_spanOverflow hstep hspan]
    simp [failed, statusOverflow, hstep, hspan]

/-- Three bytes, one of them stray, counted down: a host that keeps to the length gets the slice, one that adds
a byte is trapped, and with a null buffer there is nothing to slice. -/
theorem substr_refines_stray :
    let buffer : Buffer := ⟨3, some ⟨#[0x61, 0x80, 0x62], rfl⟩⟩
    ¬ ((-1 : Int64).toInt - (1 : Int64).toInt = -2 ^ 63 ∧ (-1 : Int64) = -1) ∧
    ((-1 : Int64) ≠ 0 ∧ Checked.IsWord ((-1 : Int64).toInt - (1 : Int64).toInt)) ∧
    (substr id buffer 1 (-1) (-1)).answer = .returned 0 #[0x62, 0x61, 0x80] ∧
    (substr (· + 1) buffer 1 (-1) (-1)).answer = .trapped 9700 ∧
    (len (.null 3)).toInt = 0 := by
  intro buffer
  have hcounted : ¬ ((-1 : Int64).toInt - (1 : Int64).toInt = -2 ^ 63 ∧ (-1 : Int64) = -1) := by decide
  have hspan : Checked.IsWord ((-1 : Int64).toInt - (1 : Int64).toInt) := by decide
  have hslice : Text.substring buffer.bytes 1 (-1) (-1) = .ok #[0x62, 0x61, 0x80] := by decide +kernel
  obtain ⟨⟨-, hnull⟩, -, -, -, hkept, -⟩ := substr_refines id buffer 1 (-1) (-1) hcounted
  obtain ⟨-, -, -, -, hlonger, -⟩ := substr_refines (· + 1) buffer 1 (-1) (-1) hcounted
  obtain ⟨out, hout, -, -, -, hanswer⟩ := hkept (by decide) hspan
  obtain ⟨out', hout', -, -, htrapped, -⟩ := hlonger (by decide) hspan
  obtain rfl := Except.ok.inj (hout.symm.trans hslice)
  exact ⟨hcounted, ⟨by decide, hspan⟩, hanswer rfl, htrapped.2 (Nat.succ_ne_self _), hnull 3⟩

end Foreign

end ObjectRuntime.Text
