import ObjectRuntime.Host.FileSystem
import ObjectRuntime.Proofs.Invocation
import ObjectRuntime.Proofs.Slots

/-! Full reads. A full read is a run of reads, each of which asks for all that is still missing. It ends with
the first that fails, unless that was only interrupted, or that finds the input at its end, and at the latest
when nothing is missing any more. However a host splits up its input, what arrives is the next stretch of it. -/

namespace ObjectRuntime

/-! ### Reads -/

/-- A read that was carried out, and how it came out. -/
structure ReadCall where
  fd : Int
  wanted : Nat
  outcome : Except Errno (List UInt8)

namespace ReadCall

/-- The bytes that it brought in. -/
def bytes (c : ReadCall) : List UInt8 := c.outcome.toOption.getD []

/-- It found the input at its end. -/
def AtEnd (c : ReadCall) : Prop := c.outcome = .ok []

/-- It failed, and was not only interrupted. -/
def Fails (c : ReadCall) (e : Errno) : Prop := c.outcome = .error e ∧ e ≠ .interrupted

/-- Nothing is to be read after it. -/
def Final (c : ReadCall) : Prop := c.AtEnd ∨ ∃ e, c.Fails e

variable {fd : Int} {n : Nat} {bs : List UInt8} {e e' : Errno}

@[simp] theorem bytes_ok : (mk fd n (.ok bs)).bytes = bs := rfl

@[simp] theorem bytes_error : (mk fd n (.error e)).bytes = [] := rfl

@[simp] theorem atEnd_ok : (mk fd n (.ok bs)).AtEnd ↔ bs = [] := by simp [AtEnd]

@[simp] theorem not_atEnd_error : ¬ (mk fd n (.error e)).AtEnd := nofun

@[simp] theorem not_fails_ok : ¬ (mk fd n (.ok bs)).Fails e := nofun

@[simp] theorem fails_error : (mk fd n (.error e)).Fails e' ↔ e = e' ∧ e ≠ .interrupted := by
  simp +contextual [Fails]

end ReadCall

/-- All that these reads brought in. -/
def arrived (calls : List ReadCall) : List UInt8 := calls.flatMap ReadCall.bytes

/-- The reads of a full read of `n` bytes: each asks for what has not arrived before it, and for something;
none comes after one that is final; and they go on until all bytes have arrived or one is final. -/
structure FullRead (fd : Int) (n : Nat) (calls : List ReadCall) : Prop where
  each : ∀ before c after, calls = before ++ c :: after → c.fd = fd ∧ 0 < c.wanted ∧
    (arrived before).length + c.wanted = n ∧ ∀ b ∈ before, ¬ b.Final
  complete : (arrived calls).length = n ∨ ∃ c ∈ calls, c.Final

section Calls

variable {fd : Int} {n : Nat} {c : ReadCall} {calls : List ReadCall}

@[simp] theorem arrived_nil : arrived [] = [] := rfl

@[simp] theorem arrived_cons : arrived (c :: calls) = c.bytes ++ arrived calls := rfl

theorem FullRead.nil : FullRead fd 0 [] where
  each before c after h := by simp at h
  complete := Or.inl rfl

theorem FullRead.last (hn : 0 < n) (hfd : c.fd = fd) (hwanted : c.wanted = n) (hfinal : c.Final) :
    FullRead fd n [c] where
  each before d after h := by
    obtain ⟨rfl, hcons⟩ | ⟨_, rfl, hnil⟩ := List.cons_eq_append_iff.1 h
    · cases hcons
      exact ⟨hfd, hwanted ▸ hn, by simpa using hwanted, nofun⟩
    · simp at hnil
  complete := Or.inr ⟨c, List.mem_singleton_self c, hfinal⟩

theorem FullRead.cons (hn : 0 < n) (hfd : c.fd = fd) (hwanted : c.wanted = n) (hgoes : ¬ c.Final)
    (hlen : c.bytes.length ≤ n) (h : FullRead fd (n - c.bytes.length) calls) : FullRead fd n (c :: calls) where
  each before d after hsplit := by
    obtain ⟨rfl, hcons⟩ | ⟨before, rfl, hrest⟩ := List.cons_eq_append_iff.1 hsplit
    · cases hcons
      exact ⟨hfd, hwanted ▸ hn, by simpa using hwanted, nofun⟩
    · obtain ⟨hd, hpos, hsum, hbefore⟩ := h.each before d after hrest
      refine ⟨hd, hpos, ?_, List.forall_mem_cons.2 ⟨hgoes, hbefore⟩⟩
      rw [arrived_cons, List.length_append]
      omega
  complete := by
    rcases h.complete with hall | ⟨d, hd, hfinal⟩
    · left
      rw [arrived_cons, List.length_append]
      omega
    · exact Or.inr ⟨d, List.mem_cons_of_mem c hd, hfinal⟩

/-- A full read of nothing reads nothing. -/
theorem FullRead.eq_nil (h : FullRead fd 0 calls) : calls = [] := by
  cases calls with
  | nil => rfl
  | cons c calls =>
    obtain ⟨-, hpos, hsum, -⟩ := h.each [] c calls rfl
    rw [arrived_nil, List.length_nil] at hsum
    omega

end Calls

/-! ### Full reads of a host -/

namespace Host

variable {ω : Type}

/-- The same host, with its reads written down. -/
def recorded (host : Host ω) : Host (ω × List ReadCall) where
  openFile path mode w := (host.openFile path mode w.1).map id (·, w.2)
  close fd w := (host.close fd w.1).map id (·, w.2)
  read fd n w := let (r, w') := host.read fd n w.1; (r, (w', w.2 ++ [⟨fd, n, r⟩]))
  write fd bytes w := (host.write fd bytes w.1).map id (·, w.2)
  reserves := host.reserves
  interruptions w := host.interruptions w.1
  interruptions_lt h := host.interruptions_lt (Prod.ext (congrArg (·.1) h) (congrArg (·.2.1) h))

/-- What is to come on a descriptor is `input`: each read of some bytes fails and leaves the input as it is, or
brings in the next bytes. A read of `n` bytes brings in at most `n`, and none only at the end of input. -/
structure Serves (host : Host ω) (fd : Int) (input : ω → List UInt8) : Prop where
  delivers : ∀ {n w bs w'}, 0 < n → host.read fd n w = (.ok bs, w') →
    bs.length ≤ n ∧ input w = bs ++ input w'
  ended : ∀ {n w w'}, 0 < n → host.read fd n w = (.ok [], w') → input w = []
  failed : ∀ {n w e w'}, 0 < n → host.read fd n w = (.error e, w') → input w' = input w

/-- How a full read goes: the reads, what it comes to, and the world at its end. -/
inductive Reading (host : Host ω) (fd : Int) :
    Nat → ω → List ReadCall → Except Errno (List UInt8) → ω → Prop where
  | full {w : ω} : Reading host fd 0 w [] (.ok []) w
  | again {n : Nat} {w w₁ w₂ : ω} {calls : List ReadCall} {r : Except Errno (List UInt8)} (hn : 0 < n)
    (hread : host.read fd n w = (.error .interrupted, w₁)) (h : Reading host fd n w₁ calls r w₂) :
    Reading host fd n w (⟨fd, n, .error .interrupted⟩ :: calls) r w₂
  | failed {n : Nat} {w w₁ : ω} {e : Errno} (hn : 0 < n) (hread : host.read fd n w = (.error e, w₁))
    (he : e ≠ .interrupted) : Reading host fd n w [⟨fd, n, .error e⟩] (.error e) w₁
  | ended {n : Nat} {w w₁ : ω} (hn : 0 < n) (hread : host.read fd n w = (.ok [], w₁)) :
    Reading host fd n w [⟨fd, n, .ok []⟩] (.ok []) w₁
  | more {n : Nat} {w w₁ w₂ : ω} {b : UInt8} {bs : List UInt8} {calls : List ReadCall}
    {r : Except Errno (List UInt8)} (hn : 0 < n) (hread : host.read fd n w = (.ok (b :: bs), w₁))
    (h : Reading host fd (n - (b :: bs).length) w₁ calls r w₂) :
    Reading host fd n w (⟨fd, n, .ok (b :: bs)⟩ :: calls) (r.map ((b :: bs) ++ ·)) w₂

variable {host : Host ω} {fd : Int} {n : Nat} {w w' : ω} {calls : List ReadCall}
  {r : Except Errno (List UInt8)} {input : ω → List UInt8}

theorem exists_reading (host : Host ω) (fd : Int) (n : Nat) (w : ω) :
    ∃ calls r w', host.Reading fd n w calls r w' := by
  -- on the bytes that are missing, and while these stay as many, on the interruptions still to come
  induction n, w using readFully.induct host fd with
  | case1 w => exact ⟨_, _, _, .full⟩
  | case2 n w hn w₁ hread ih =>
    obtain ⟨calls, r, w', h⟩ := ih
    exact ⟨_, _, _, .again (Nat.pos_of_ne_zero hn) hread h⟩
  | case3 n w hn e w₁ hread he => exact ⟨_, _, _, .failed (Nat.pos_of_ne_zero hn) hread he⟩
  | case4 n w hn w₁ hread => exact ⟨_, _, _, .ended (Nat.pos_of_ne_zero hn) hread⟩
  | case5 n w hn b bs w₁ hread _ _ _ ih =>
    obtain ⟨calls, r, w', h⟩ := ih
    exact ⟨_, _, _, .more (Nat.pos_of_ne_zero hn) hread h⟩

theorem readFully_of_pos (hn : 0 < n) : host.readFully fd n w = match host.read fd n w with
    | (.error e, w') => if e = .interrupted then host.readFully fd n w' else (.error e, w')
    | (.ok [], w') => (.ok [], w')
    | (.ok (b :: bs), w') =>
      ((host.readFully fd (n - (b :: bs).length) w').1.map ((b :: bs) ++ ·),
        (host.readFully fd (n - (b :: bs).length) w').2) := by
  rw [readFully, if_neg hn.ne']
  split <;> rename_i hread <;> rw [hread]

/-- What a full read comes to is what the program comes to. -/
theorem Reading.readFully_eq (h : host.Reading fd n w calls r w') : host.readFully fd n w = (r, w') := by
  induction h with
  | full => rw [readFully, if_pos rfl]
  | again hn hread _ ih =>
    rw [readFully_of_pos hn, hread]
    exact (if_pos rfl).trans ih
  | failed hn hread he =>
    rw [readFully_of_pos hn, hread]
    exact if_neg he
  | ended hn hread => rw [readFully_of_pos hn, hread]
  | more hn hread _ ih =>
    rw [readFully_of_pos hn, hread]
    simp only [ih]

/-- The reads that are written down are those of the full read, in order. -/
theorem Reading.recorded (h : host.Reading fd n w calls r w') (log : List ReadCall) :
    host.recorded.Reading fd n (w, log) calls r (w', log ++ calls) := by
  have hread {n : Nat} {w w₁ : ω} {r : Except Errno (List UInt8)} (h : host.read fd n w = (r, w₁))
      (log : List ReadCall) : host.recorded.read fd n (w, log) = (r, (w₁, log ++ [⟨fd, n, r⟩])) := by
    simp only [Host.recorded, h]
  induction h generalizing log with
  | full => simpa using .full
  | again hn h _ ih =>
    rw [List.append_cons]
    exact .again hn (hread h log) (ih _)
  | failed hn h he => exact .failed hn (hread h log) he
  | ended hn h => exact .ended hn (hread h log)
  | more hn h _ ih =>
    rw [List.append_cons]
    exact .more hn (hread h log) (ih _)

/-! ### What a full read comes to -/

theorem Reading.eq_ok (h : host.Reading fd n w calls r w') {bs : List UInt8} (hr : r = .ok bs) :
    bs = arrived calls := by
  induction h generalizing bs with
  | full => simpa using hr.symm
  | again _ _ _ ih => simpa using ih hr
  | failed => cases hr
  | ended => simpa using hr.symm
  | @more _ _ _ _ b' bs' _ r _ _ _ ih =>
    cases r with
    | error e => cases hr
    | ok rest =>
      cases hr
      simp [ih rfl]

theorem Reading.eq_error_iff (h : host.Reading fd n w calls r w') {e : Errno} :
    r = .error e ↔ ∃ c ∈ calls, c.Fails e := by
  induction h with
  | full => simp
  | again _ _ _ ih => simpa using ih
  | failed _ _ he => simp [he]
  | ended => simp
  | @more _ _ _ _ _ _ _ r _ _ _ ih =>
    cases r <;> simpa [Except.map] using ih

/-! ### What has arrived -/

theorem Reading.input_eq (hserves : host.Serves fd input) (h : host.Reading fd n w calls r w') :
    input w = arrived calls ++ input w' := by
  induction h with
  | full => rfl
  | again hn hread _ ih => simpa [hserves.failed hn hread] using ih
  | failed hn hread _ => simp [hserves.failed hn hread]
  | ended hn hread => exact (hserves.delivers hn hread).2
  | more hn hread _ ih => simpa [ih] using (hserves.delivers hn hread).2

theorem Reading.length_arrived_le (hserves : host.Serves fd input) (h : host.Reading fd n w calls r w') :
    (arrived calls).length ≤ n := by
  induction h with
  | full => simp
  | again _ _ _ ih => simpa using ih
  | failed => simp
  | ended => simp
  | more hn hread _ ih =>
    have hlen := (hserves.delivers hn hread).1
    rw [arrived_cons, List.length_append, ReadCall.bytes_ok]
    omega

/-- Once the input has been found at its end, nothing is left of it. -/
theorem Reading.drained (hserves : host.Serves fd input) (h : host.Reading fd n w calls r w')
    (hend : ∃ c ∈ calls, c.AtEnd) : input w' = [] ∧ ∃ bs, r = .ok bs := by
  induction h with
  | full => simp at hend
  | again _ _ _ ih => exact ih (by simpa using hend)
  | failed => simp at hend
  | ended hn hread =>
    refine ⟨?_, [], rfl⟩
    rw [← hserves.ended hn hread]
    exact (hserves.delivers hn hread).2.symm
  | more _ _ _ ih =>
    obtain ⟨hnone, bs, rfl⟩ := ih (by simpa using hend)
    exact ⟨hnone, _, rfl⟩

theorem Reading.fullRead (hserves : host.Serves fd input) (h : host.Reading fd n w calls r w') :
    FullRead fd n calls := by
  induction h with
  | full => exact .nil
  | again hn _ _ ih => exact .cons hn rfl rfl (by simp [ReadCall.Final]) (Nat.zero_le _) ih
  | failed hn _ he => exact .last hn rfl rfl (by simp [ReadCall.Final, he])
  | ended hn _ => exact .last hn rfl rfl (by simp [ReadCall.Final])
  | more hn hread _ ih =>
    exact .cons hn rfl rfl (by simp [ReadCall.Final]) (hserves.delivers hn hread).1 ih

/-- A full read that does not fail brings in the first `n` bytes of the input, or all there are. -/
theorem Reading.arrived_eq_take (hserves : host.Serves fd input) (h : host.Reading fd n w calls r w')
    (hgood : ∀ c ∈ calls, ∀ e, ¬ c.Fails e) : arrived calls = (input w).take n := by
  have hinput := h.input_eq hserves
  rcases (h.fullRead hserves).complete with hall | ⟨c, hc, hend | ⟨e, he⟩⟩
  · rw [hinput, List.take_left' hall]
  · rw [(h.drained hserves ⟨c, hc, hend⟩).1, List.append_nil] at hinput
    rw [hinput, List.take_of_length_le (h.length_arrived_le hserves)]
  · exact absurd he (hgood c hc e)

end Host

/-! ### Input in pieces -/

/-- What a descriptor has in store: bytes that arrive together, or a read that fails. -/
inductive Portion where
  | bytes (b : UInt8) (bs : List UInt8)
  | failure (e : Errno)
deriving DecidableEq, Repr

namespace Portion

def ofList : List UInt8 → List Portion
  | [] => []
  | b :: bs => [.bytes b bs]

def content : Portion → List UInt8
  | bytes b bs => b :: bs
  | failure _ => []

theorem flatMap_ofList (bs : List UInt8) : (ofList bs).flatMap content = bs := by
  cases bs <;> simp [ofList, content]

/-- Reads from the first portion; at the end of input there is none. -/
def read (n : Nat) : List Portion → Except Errno (List UInt8) × List Portion
  | [] => (.ok [], [])
  | failure e :: ps => (.error e, ps)
  | bytes b bs :: ps => (.ok ((b :: bs).take n), ofList ((b :: bs).drop n) ++ ps)

/-- A host with one stream of input, which comes in these portions. -/
def host (reservable : Nat) : Host (List Portion) where
  openFile _ _ ps := (.error .noEntry, ps)
  close _ ps := (.ok (), ps)
  read _ n ps := read n ps
  write _ bytes ps := (.ok bytes.length, ps)
  reserves n := n ≤ reservable
  interruptions := List.length
  interruptions_lt {_ n ps ps'} h := by
    cases ps with
    | nil => cases h
    | cons p ps =>
      cases p with
      | bytes b bs => cases h
      | failure e =>
        cases h
        exact Nat.lt_succ_self _

/-- However the input is cut into portions, the host keeps to what is expected of one. -/
theorem host_serves (reservable : Nat) (fd : Int) : (host reservable).Serves fd (·.flatMap content) where
  delivers {n ps bs ps'} _ h := by
    cases ps with
    | nil => cases h; simp
    | cons p ps =>
      cases p with
      | failure e => cases h
      | bytes b bs =>
        cases h
        refine ⟨List.length_take_le n _, ?_⟩
        rw [List.flatMap_cons, List.flatMap_append, flatMap_ofList, content, ← List.append_assoc,
          List.take_append_drop]
  ended {n ps ps'} hn h := by
    cases ps with
    | nil => rfl
    | cons p ps =>
      cases p with
      | failure e => cases h
      | bytes b bs =>
        have hnone : (b :: bs).take n = [] := Except.ok.inj (congrArg Prod.fst h)
        simp [hn.ne'] at hnone
  failed {n ps e ps'} _ h := by
    cases ps with
    | nil => cases h
    | cons p ps =>
      cases p with
      | bytes b bs => cases h
      | failure e => cases h; rfl

end Portion

/-! ### Files -/

namespace FileSystem

/-- What is to come on a descriptor. -/
def upcoming (fs : FileSystem) (fd : Int) : List UInt8 :=
  match fs.opened.lookup fd with
  | some ⟨.file index, offset, _, _⟩ => (fs.content index).drop offset
  | _ => []

theorem lookup_seek (fs : FileSystem) (fd : Int) (offset : Nat) :
    (fs.seek fd offset).opened.lookup fd = (fs.opened.lookup fd).map ({ · with offset := offset }) := by
  rw [seek]
  generalize fs.opened = opened
  induction opened with
  | nil => rfl
  | cons d ds ih =>
    obtain ⟨k, d⟩ := d
    simp only [List.map_cons] at ih ⊢
    by_cases h : k = fd
    · simp [h]
    · rw [if_neg h, List.lookup_cons, List.lookup_cons, ih]
      split <;> simp_all

section Read

variable {fd : Int} {n : Nat} {fs fs' : FileSystem} {d : Opened}

theorem upcoming_of_file {index : Nat} (h : fs.opened.lookup fd = some d) (hfile : d.entry = .file index) :
    fs.upcoming fd = (fs.content index).drop d.offset := by
  obtain ⟨entry, offset, access, append⟩ := d
  cases hfile
  rw [upcoming, h]

theorem upcoming_of_sink (h : fs.opened.lookup fd = some d) (hsink : d.entry = .sink) : fs.upcoming fd = [] := by
  obtain ⟨entry, offset, access, append⟩ := d
  cases hsink
  rw [upcoming, h]

theorem read_eq_ok {bs : List UInt8} (h : fs.read fd n = (.ok bs, fs')) :
    bs = (fs.upcoming fd).take n ∧ fs'.upcoming fd = (fs.upcoming fd).drop bs.length := by
  rw [read] at h
  cases hopen : fs.opened.lookup fd with
  | none => simp [hopen] at h
  | some d =>
    simp only [hopen] at h
    split at h
    · cases h
    · split at h
      · cases h
      · rename_i hsink
        cases h
        simp [upcoming_of_sink hopen hsink]
      · rename_i index hfile
        cases h
        have hseek (offset : Nat) : (fs.seek fd offset).upcoming fd = (fs.content index).drop offset := by
          have hopen' : (fs.seek fd offset).opened.lookup fd = some { d with offset := offset } := by
            rw [lookup_seek, hopen]
            rfl
          exact upcoming_of_file hopen' hfile
        rw [hseek, upcoming_of_file hopen hfile, List.drop_drop]
        exact ⟨rfl, rfl⟩

theorem read_eq_error {e : Errno} (h : fs.read fd n = (.error e, fs')) : fs' = fs := by
  rw [read] at h
  split at h
  · exact (congrArg Prod.snd h).symm
  · split at h
    · exact (congrArg Prod.snd h).symm
    · split at h
      · exact (congrArg Prod.snd h).symm
      · cases h
      · cases h

end Read

/-- A file is read from the offset of its descriptor on. -/
theorem host_serves (fd : Int) : FileSystem.host.Serves fd (·.upcoming fd) where
  delivers {n fs bs fs'} _ h := by
    obtain ⟨hbs, hrest⟩ := read_eq_ok h
    refine ⟨hbs ▸ List.length_take_le n _, ?_⟩
    rw [hrest, List.prefix_iff_eq_append.1 (hbs ▸ List.take_prefix n _)]
  ended {n fs fs'} hn h := by
    simpa [hn.ne'] using (read_eq_ok h).1
  failed _ h := by rw [read_eq_error h]

end FileSystem

/-! ### Streams -/

namespace Machine

/-- How an action ends that comes to this result in this state. -/
def ending {σ α : Type} : Except Raise α → σ → EStateM.Result Halt σ α
  | .ok a, s => .ok a s
  | .error r, s => .error (.raised r) s

/-- What is made of the outcome of a full read of `n` bytes. -/
def streamed (n : Nat) : Except Errno (List UInt8) → Except Raise Attr
  | .ok bs => if bs = [] ∧ 0 < n then .error .endOfInput else .ok (.str bs.toArray)
  | .error e => .error (.io e.code)

variable {ω : Type} {m : Machine} {host : Host ω} {fd : Int} {n : Nat} {w w' : ω} {calls : List ReadCall}
  {r : Except Errno (List UInt8)} {input : ω → List UInt8}

theorem raise_of_has {σ α : Type} {r : Raise} {c : Capability} (hkind : r.kind.capability? = some c)
    (hc : m.capabilities.has c) (s : σ) : (m.raise r : ActionOn σ α) s = .error (.raised r) s := by
  simp only [raise, CapabilitySet.raising, hkind, hc, if_true]
  rfl

theorem readStream_of_reserves (hio : m.capabilities.has .ioError) (heof : m.capabilities.has .eofError)
    (hroom : host.reserves n) (h : host.readFully fd n w = (r, w')) :
    m.readStream host fd n w = ending (streamed n r) w' := by
  rw [readStream, if_pos hroom, hostCall, bind_assoc, ActionOn.modifyGet_bind, h]
  cases r with
  | error e => exact raise_of_has rfl hio w'
  | ok bs =>
    change (if bs.isEmpty ∧ 0 < n then m.raise .endOfInput else pure (.str bs.toArray) : ActionOn ω Attr) w' = _
    by_cases hend : bs = [] ∧ 0 < n
    · rw [if_pos (by simpa using hend), streamed, if_pos hend]
      exact raise_of_has rfl heof w'
    · rw [if_neg (by simpa using hend), streamed, if_neg hend]
      rfl

theorem readStream_of_not_reserves (hroom : host.reserves n = false) :
    m.readStream host fd n w = .error (.raised .memory) w := by
  rw [readStream, if_neg (by simp [hroom])]
  rfl

theorem streamed_eq_ok_iff (hserves : host.Serves fd input) (h : host.Reading fd n w calls r w') {v : Attr} :
    streamed n r = .ok v ↔ v = .str ((input w).take n).toArray ∧ (∀ c ∈ calls, ∀ e, ¬ c.Fails e) ∧
      (n = 0 ∨ arrived calls ≠ []) := by
  cases r with
  | error e =>
    obtain ⟨c, hc, he⟩ := h.eq_error_iff.1 rfl
    exact iff_of_false nofun fun hv => hv.2.1 c hc e he
  | ok bs =>
    have hgood : ∀ c ∈ calls, ∀ e, ¬ c.Fails e := by
      intro c hc e he
      cases h.eq_error_iff.2 ⟨c, hc, he⟩
    rw [← h.arrived_eq_take hserves hgood, ← h.eq_ok rfl, and_iff_right hgood, streamed]
    split
    · rename_i hend
      exact iff_of_false nofun fun hv => by simp [hend, hend.2.ne'] at hv
    · rename_i hend
      have hsome : n = 0 ∨ bs ≠ [] := by
        by_contra hnone
        rw [not_or, not_ne_iff] at hnone
        exact hend ⟨hnone.2, Nat.pos_of_ne_zero hnone.1⟩
      rw [and_iff_left hsome, Except.ok.injEq]
      exact eq_comm

theorem streamed_eq_endOfInput_iff (hserves : host.Serves fd input) (h : host.Reading fd n w calls r w') :
    streamed n r = .error .endOfInput ↔ 0 < n ∧ arrived calls = [] ∧ ∃ c ∈ calls, c.AtEnd := by
  cases r with
  | error e =>
    refine iff_of_false nofun fun hend => ?_
    obtain ⟨-, bs, hbs⟩ := h.drained hserves hend.2.2
    cases hbs
  | ok bs =>
    rw [← h.eq_ok rfl, streamed]
    constructor
    · intro hend
      obtain ⟨hnil, hn⟩ : bs = [] ∧ 0 < n := by
        by_contra hgot
        simp [hgot] at hend
      refine ⟨hn, hnil, ?_⟩
      rcases (h.fullRead hserves).complete with hall | ⟨c, hc, hlast | ⟨e, he⟩⟩
      · rw [← h.eq_ok rfl, hnil, List.length_nil] at hall
        exact absurd hall hn.ne
      · exact ⟨c, hc, hlast⟩
      · cases h.eq_error_iff.2 ⟨c, hc, he⟩
    · rintro ⟨hn, hnil, -⟩
      rw [if_pos ⟨hnil, hn⟩]

theorem streamed_eq_io_iff (h : host.Reading fd n w calls r w') {code : Int32} :
    streamed n r = .error (.io code) ↔ ∃ c ∈ calls, c.Fails ⟨code⟩ := by
  rw [← h.eq_error_iff]
  cases r with
  | error e =>
    cases e
    simp [streamed]
  | ok bs =>
    refine iff_of_false ?_ nofun
    rw [streamed]
    split <;> nofun

/-- A buffer that cannot be reserved raises before anything is read. Else a full read goes as it should: each
read asks for what is still missing, which is something, none comes after one that failed or that found the
input at its end, and there is none once all has arrived. What it takes from the input is what arrived, and no
more than `n` bytes. It comes to the next `n` bytes, or to all there are, if no read failed and, where any were
wanted, some arrived; to the end of input if that was found before any byte; and to the failure of a read. -/
theorem readStream_exact (hserves : host.Serves fd input) (hio : m.capabilities.has .ioError)
    (heof : m.capabilities.has .eofError) (n : Nat) (w : ω) :
    (host.reserves n = false →
      m.readStream host fd n w = .error (.raised .memory) w ∧
      m.readStream host.recorded fd n (w, []) = .error (.raised .memory) (w, [])) ∧
    (host.reserves n = true → ∃ result calls w',
      m.readStream host fd n w = ending result w' ∧
      m.readStream host.recorded fd n (w, []) = ending result (w', calls) ∧
      FullRead fd n calls ∧ (n = 0 → calls = []) ∧
      input w = arrived calls ++ input w' ∧ (arrived calls).length ≤ n ∧
      (∀ v, result = .ok v ↔ v = .str ((input w).take n).toArray ∧ (∀ c ∈ calls, ∀ e, ¬ c.Fails e) ∧
        (n = 0 ∨ arrived calls ≠ [])) ∧
      (result = .error .endOfInput ↔ 0 < n ∧ arrived calls = [] ∧ ∃ c ∈ calls, c.AtEnd) ∧
      ∀ code, result = .error (.io code) ↔ ∃ c ∈ calls, c.Fails ⟨code⟩) := by
  refine ⟨fun hroom => ⟨readStream_of_not_reserves hroom, readStream_of_not_reserves hroom⟩, fun hroom => ?_⟩
  obtain ⟨calls, r, w', h⟩ := host.exists_reading fd n w
  refine ⟨streamed n r, calls, w', readStream_of_reserves hio heof hroom h.readFully_eq,
    readStream_of_reserves hio heof hroom (h.recorded []).readFully_eq, h.fullRead hserves, ?_,
    h.input_eq hserves, h.length_arrived_le hserves, fun v => streamed_eq_ok_iff hserves h,
    streamed_eq_endOfInput_iff hserves h, fun code => streamed_eq_io_iff h⟩
  rintro rfl
  exact (h.fullRead hserves).eq_nil

/-- Of six bytes that come in two portions, with an interruption in between, five are read and one is left;
nine bytes are more than the host can reserve. -/
theorem readStream_exact_portions :
    let m : Machine := { Sample.machine with capabilities := Profile.io.capabilities }
    let ps : List Portion := [.bytes 0x61 [0x62], .failure .interrupted, .bytes 0x63 [0x64, 0x65, 0x66]]
    m.readStream (Portion.host 8) 3 9 ps = .error (.raised .memory) ps ∧
    ∃ calls, m.readStream (Portion.host 8).recorded 3 5 (ps, []) =
        .ok (.str #[0x61, 0x62, 0x63, 0x64, 0x65]) ([.bytes 0x66 []], calls) ∧
      FullRead 3 5 calls ∧ arrived calls = [0x61, 0x62, 0x63, 0x64, 0x65] := by
  intro m ps
  have hexact (n : Nat) := readStream_exact (m := m) (Portion.host_serves 8 3) rfl rfl n ps
  refine ⟨((hexact 9).1 rfl).1, ?_⟩
  have hlast : (Portion.host 8).Reading 3 3 [.bytes 0x63 [0x64, 0x65, 0x66]] _ _ [.bytes 0x66 []] :=
    .more (by decide) rfl .full
  have hreading : (Portion.host 8).Reading 3 5 ps _ _ [.bytes 0x66 []] :=
    .more (by decide) rfl (.again (by decide) rfl hlast)
  have hrun := readStream_of_reserves (m := m) rfl rfl rfl (hreading.recorded []).readFully_eq
  obtain ⟨result, calls, w', -, hexactly, hfull, -, hinput, -⟩ := (hexact 5).2 rfl
  have hsame := hrun.symm.trans hexactly
  cases result with
  | error r => cases hsame
  | ok v =>
    cases hsame
    exact ⟨_, hrun, hfull, (List.append_cancel_right hinput).symm⟩

end Machine
end ObjectRuntime
