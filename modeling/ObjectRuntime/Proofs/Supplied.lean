import ObjectRuntime.Proofs.Invocation

/-! What becomes of the values that a call supplies by name. A position counts as taken by what it holds,
so a keyword with an empty value takes nothing: a later keyword may ask for its position again, and
otherwise the position gets its default. Every other value is found where its keyword asked for it. -/

namespace ObjectRuntime

namespace ParamTable

variable {t : ParamTable} {given p : Nat} {bound bound' : Array Attr} {k : Keyword} {ks : List Keyword}

/-- No keyword is bound to a position that holds something, so what it holds stays. -/
theorem foldlM_bindKeyword_of_full (h : ks.foldlM (t.bindKeyword given) bound = .ok bound')
    (hfull : bound[p]? ≠ some .null) :
    (∀ k ∈ ks, t.position? k ≠ some p) ∧ bound'[p]? = bound[p]? := by
  induction ks generalizing bound with
  | nil =>
    cases h
    exact ⟨nofun, rfl⟩
  | cons k ks ih =>
    rw [List.foldlM_cons, bind_eq_ok_iff] at h
    obtain ⟨b, hk, hrest⟩ := h
    obtain ⟨q, hq, -, hnull, rfl⟩ := bindKeyword_eq_ok_iff.1 hk
    have hne : q ≠ p := by
      rintro rfl
      exact hfull hnull
    have hkeep : (bound.setIfInBounds q k.value)[p]? = bound[p]? := Array.getElem?_setIfInBounds_ne hne
    obtain ⟨hothers, hvalue⟩ := ih hrest (by rwa [hkeep])
    refine ⟨fun k' hk' => ?_, hvalue.trans hkeep⟩
    rcases List.mem_cons.1 hk' with rfl | hk'
    · intro heq
      exact hne (Option.some.inj (hq.symm.trans heq))
    · exact hothers k' hk'

theorem foldlM_bindKeyword_of_value (h : ks.foldlM (t.bindKeyword given) bound = .ok bound')
    (hk : k ∈ ks) (hvalue : k.value ≠ .null) (hp : t.position? k = some p) :
    bound'[p]? = some k.value := by
  induction ks generalizing bound with
  | nil => cases hk
  | cons k' ks ih =>
    rw [List.foldlM_cons, bind_eq_ok_iff] at h
    obtain ⟨b, hk', hrest⟩ := h
    rcases List.mem_cons.1 hk with rfl | hk
    · obtain ⟨q, hq, -, hnull, rfl⟩ := bindKeyword_eq_ok_iff.1 hk'
      obtain rfl : p = q := Option.some.inj (hp.symm.trans hq)
      have hset : (bound.setIfInBounds p k.value)[p]? = some k.value :=
        Array.getElem?_setIfInBounds_self_of_lt (Array.getElem?_eq_some_iff.1 hnull).1
      rw [(foldlM_bindKeyword_of_full hrest ?_).2, hset]
      rw [hset]
      exact fun heq => hvalue (Option.some.inj heq)
    · exact ih hrest hk

/-- Of two keywords for one parameter the earlier is empty. -/
theorem foldlM_bindKeyword_pairwise (h : ks.foldlM (t.bindKeyword given) bound = .ok bound') :
    ks.Pairwise fun k k' => t.position? k = t.position? k' → k.value = .null := by
  induction ks generalizing bound with
  | nil => exact List.Pairwise.nil
  | cons k ks ih =>
    rw [List.foldlM_cons, bind_eq_ok_iff] at h
    obtain ⟨b, hk, hrest⟩ := h
    refine List.pairwise_cons.2 ⟨fun k' hk' heq => ?_, ih hrest⟩
    obtain ⟨q, hq, -, hnull, rfl⟩ := bindKeyword_eq_ok_iff.1 hk
    by_contra hvalue
    have hfull : (bound.setIfInBounds q k.value)[q]? ≠ some .null := by
      rw [Array.getElem?_setIfInBounds_self_of_lt (Array.getElem?_eq_some_iff.1 hnull).1]
      exact fun heq => hvalue (Option.some.inj heq)
    exact (foldlM_bindKeyword_of_full hrest hfull).1 k' hk' (heq.symm.trans hq)

theorem foldlM_bindKeyword_resolved (h : ks.foldlM (t.bindKeyword given) bound = .ok bound')
    (hk : k ∈ ks) : ∃ p, t.position? k = some p ∧ given ≤ p ∧ p < bound.size := by
  induction ks generalizing bound with
  | nil => cases hk
  | cons k' ks ih =>
    rw [List.foldlM_cons, bind_eq_ok_iff] at h
    obtain ⟨b, hk', hrest⟩ := h
    obtain ⟨q, hq, hle, hnull, rfl⟩ := bindKeyword_eq_ok_iff.1 hk'
    rcases List.mem_cons.1 hk with rfl | hk
    · exact ⟨q, hq, hle, (Array.getElem?_eq_some_iff.1 hnull).1⟩
    · obtain ⟨p, hp, hle, hlt⟩ := ih hrest hk
      exact ⟨p, hp, hle, by rwa [Array.size_setIfInBounds] at hlt⟩

/-- Empty values leave a position as it was. -/
theorem foldlM_bindKeyword_of_null (h : ks.foldlM (t.bindKeyword given) bound = .ok bound')
    (hnull : ∀ k ∈ ks, t.position? k = some p → k.value = .null) : bound'[p]? = bound[p]? := by
  induction ks generalizing bound with
  | nil =>
    cases h
    rfl
  | cons k ks ih =>
    rw [List.foldlM_cons, bind_eq_ok_iff] at h
    obtain ⟨b, hk, hrest⟩ := h
    rw [ih hrest fun k' hk' => hnull k' (List.mem_cons_of_mem _ hk')]
    obtain ⟨q, hq, -, hempty, rfl⟩ := bindKeyword_eq_ok_iff.1 hk
    by_cases hne : q = p
    · subst hne
      rw [hnull k List.mem_cons_self hq, hempty,
        Array.getElem?_setIfInBounds_self_of_lt (Array.getElem?_eq_some_iff.1 hempty).1]
    · exact Array.getElem?_setIfInBounds_ne hne

/-- A position after the positional arguments for which nothing is supplied by name, or only empty values. -/
def IsLeft (t : ParamTable) (given : Nat) (ks : List Keyword) (p : Nat) : Prop :=
  given ≤ p ∧ p < t.max.toNat ∧ ∀ k ∈ ks, t.position? k = some p → k.value = .null

/-- The positions that are left are those that the keywords leave empty. -/
theorem foldlM_bindKeyword_isLeft_iff {args named : Array Attr}
    (h : ks.foldlM (t.bindKeyword args.size) (t.buffer args) = .ok named) (hp : args.size ≤ p) :
    named[p]? = some .null ↔ t.IsLeft args.size ks p := by
  refine ⟨fun hnull => ?_, ?_⟩
  · have hempty : ∀ k ∈ ks, t.position? k = some p → k.value = .null := by
      intro k hk hposition
      by_contra hvalue
      have hfull := foldlM_bindKeyword_of_value h hk hvalue hposition
      exact hvalue (Option.some.inj (hfull.symm.trans hnull))
    rw [foldlM_bindKeyword_of_null h hempty] at hnull
    exact ⟨hp, (buffer_of_le hp).1 hnull, hempty⟩
  · rintro ⟨-, hlt, hempty⟩
    rw [foldlM_bindKeyword_of_null h hempty]
    exact (buffer_of_le hp).2 hlt

end ParamTable

namespace Layout

/-- Where the values of the keywords end up, empty ones among them. -/
structure Keeps (l : Layout) (target : Object) (t : ParamTable) (given : Nat) (ks : List Keyword)
    (bound : Array Attr) : Prop where
  resolved : ∀ k ∈ ks, ∃ p, t.position? k = some p ∧ given ≤ p ∧ p < t.max.toNat
  kept : ∀ k ∈ ks, k.value ≠ .null → ∀ p, t.position? k = some p → bound[p]? = some k.value
  /-- Of two keywords for one parameter the earlier is empty. -/
  repeated : ks.Pairwise fun k k' => t.position? k = t.position? k' → k.value = .null
  /-- Defaults go just where no keyword brought a value. -/
  defaulted : ∀ p, given ≤ p → p < t.max.toNat →
    (∀ k ∈ ks, t.position? k = some p → k.value = .null) →
    ∃ a, bound[p]? = some a ∧ l.defaultFor target t.min.toNat p = .ok a

variable {l : Layout} {target : Object} {t : ParamTable} {args bound : Array Attr} {ks : List Keyword}
  {e : Halt}

theorem keeps_of_bindArgs (h : l.bindArgs target t args ks = .ok bound) :
    l.Keeps target t args.size ks bound := by
  rcases bindArgs_eq_ok h with ⟨hsize, rfl, -⟩ | ⟨harity, named, hnamed, hfill⟩
  · exact ⟨nofun, nofun, List.Pairwise.nil, fun p hle hlt => by omega⟩
  · have hbuffer : (t.buffer args).size = t.max.toNat := ParamTable.buffer_size (by omega)
    refine ⟨fun k hk => ?_, fun k hk hvalue p hp => ?_, ParamTable.foldlM_bindKeyword_pairwise hnamed,
      fun p hle hlt hnull => ?_⟩
    · rw [← hbuffer]
      exact ParamTable.foldlM_bindKeyword_resolved hnamed hk
    · have hnamedValue := ParamTable.foldlM_bindKeyword_of_value hnamed hk hvalue hp
      rw [foldlM_fillDefault_of_full hfill fun _ => ?_, hnamedValue]
      rw [hnamedValue]
      exact fun heq => hvalue (Option.some.inj heq)
    · have hempty : named[p]? = some .null :=
        (ParamTable.foldlM_bindKeyword_of_null hnamed hnull).trans ((ParamTable.buffer_of_le hle).2 hlt)
      obtain ⟨a, ha, hslot⟩ :=
        foldlM_fillDefault_of_empty hfill (mem_positions_iff.2 ⟨hle, hlt⟩) hempty
      exact ⟨a, hslot, ha⟩

/-- A second keyword for a parameter that has a value is a type error, before any default is looked
at. -/
theorem bindArgs_error_of_repeated
    (h : ¬ ks.Pairwise fun k k' => t.position? k = t.position? k' → k.value = .null) :
    ∃ cause, cause ≠ .unboundMethod ∧ l.bindArgs target t args ks = .error (.type cause) := by
  rcases bindArgs_cases l target t args ks with ⟨-, rfl, -⟩ | ⟨-, herr⟩ | ⟨-, hloops⟩
  · exact absurd List.Pairwise.nil h
  · exact ⟨.wrongArgumentCount, nofun, herr⟩
  · cases hfold : ks.foldlM (t.bindKeyword args.size) (t.buffer args) with
    | ok named => exact absurd (ParamTable.foldlM_bindKeyword_pairwise hfold) h
    | error e =>
      rw [hloops, hfold]
      rcases ParamTable.foldlM_bindKeyword_error hfold with rfl | rfl
      · exact ⟨.unexpectedKeyword, nofun, rfl⟩
      · exact ⟨.parameterOccupied, nofun, rfl⟩

end Layout

namespace Machine

variable {m : Machine} {s : State} {callable : Attr} {args : Array Attr} {ks : List Keyword}
  {target : ObjectRef} {context : Option Attr} {t : ParamTable}

/-- When a call runs its native, every value supplied by name is in its place unless it is empty; and a
second keyword for a parameter that has a value is a type error. -/
theorem supplied_values_kept (htargets : m.layout.Targets s.heap callable target context t)
    (proven : Bool) :
    (∀ func bound, m.Runs s callable proven ks args ⟨.named func, bound⟩ →
      m.layout.Keeps (s.heap.object target) t (supply args context).size ks bound) ∧
    ((¬ ks.Pairwise fun k k' => t.position? k = t.position? k' → k.value = .null) →
      ∃ cause, m.Refuses s callable proven ks args cause) := by
  refine ⟨fun func bound hruns => ?_, fun hrepeated => ?_⟩
  · obtain ⟨hbind, -⟩ := (Layout.prepare_eq_ok_iff htargets).1 (prepare_of_runs hruns)
    exact Layout.keeps_of_bindArgs hbind
  · obtain ⟨cause, -, herror⟩ := Layout.bindArgs_error_of_repeated hrepeated
    refine ⟨cause, refuses_of_prepare ?_⟩
    rw [Layout.prepare_of_targets htargets, herror]
    rfl

end Machine

namespace Sample

/-- The last parameter is named twice, at first without a value. -/
def emptyFirst : List Keyword := [⟨9, 1, .null⟩, ⟨9, 1, .int 30⟩]

def emptyOnly : List Keyword := [⟨9, 1, .null⟩]

def emptyLast : List Keyword := [⟨9, 1, .int 30⟩, ⟨9, 1, .null⟩]

theorem runs_emptyFirst : machine.Runs state (.ofObject ⟨1⟩) false emptyFirst #[.null]
    ⟨.named "record", #[.int 1, .int 5, .int 6, .int 30]⟩ :=
  Machine.runs_of_prepare rfl

theorem runs_emptyOnly : machine.Runs state (.ofObject ⟨1⟩) false emptyOnly #[.null]
    ⟨.named "record", #[.int 1, .int 5, .int 6, .int 7]⟩ :=
  Machine.runs_of_prepare rfl

end Sample

/-- A value after an empty one for the same parameter is kept; the other way around the call is
refused. -/
theorem Machine.supplied_values_kept_sample :
    Sample.layout.Targets Sample.state.heap (.ofObject ⟨1⟩) ⟨0⟩ (some (.int 1)) Sample.params ∧
    (∃ bound : Array Attr, bound[3]? = some (.int 30) ∧ Sample.machine.Runs Sample.state (.ofObject ⟨1⟩)
      false Sample.emptyFirst #[.null] ⟨.named "record", bound⟩) ∧
    ∃ cause, Sample.machine.Refuses Sample.state (.ofObject ⟨1⟩) false Sample.emptyLast #[.null] cause := by
  have htargets : Sample.machine.layout.Targets Sample.state.heap (.ofObject ⟨1⟩) ⟨0⟩ (some (.int 1))
      Sample.params := Sample.targets
  refine ⟨htargets, ⟨_, ?_, Sample.runs_emptyFirst⟩, ?_⟩
  · have hkeeps := (supplied_values_kept htargets false).1 _ _ Sample.runs_emptyFirst
    exact hkeeps.kept ⟨9, 1, .int 30⟩ (by decide) nofun 3 rfl
  · exact (supplied_values_kept htargets false).2 (by decide)

/-- An empty value is lost: another keyword takes its place without an error, or a default does. -/
theorem Machine.supplied_empty_lost :
    (Sample.machine.Runs Sample.state (.ofObject ⟨1⟩) false Sample.emptyFirst #[.null]
        ⟨.named "record", #[.int 1, .int 5, .int 6, .int 30]⟩ ∧
      Sample.emptyFirst.map Sample.params.position? = [some 3, some 3]) ∧
    (Sample.machine.Runs Sample.state (.ofObject ⟨1⟩) false Sample.emptyOnly #[.null]
        ⟨.named "record", #[.int 1, .int 5, .int 6, .int 7]⟩ ∧
      Sample.emptyOnly.map Sample.params.position? = [some 3] ∧
      Sample.machine.layout.defaultFor Sample.function 1 3 = .ok (.int 7)) :=
  ⟨⟨Sample.runs_emptyFirst, rfl⟩, Sample.runs_emptyOnly, rfl, rfl⟩

end ObjectRuntime
