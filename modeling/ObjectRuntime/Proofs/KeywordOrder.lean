import ObjectRuntime.Proofs.Faults

/-! The order of keywords. A keyword is bound if its position is still empty, so whether one is accepted hangs
on those before it; but whether all are does not, nor what they leave in the buffer, as long as none of them
is empty. The order only decides which of them is refused first. -/

namespace ObjectRuntime

namespace ParamTable

variable {t : ParamTable} {given : Nat} {bound named : Array Attr} {ks ks' : List Keyword}

theorem Fits.perm (h : t.Fits given bound ks) (hperm : ks.Perm ks') : t.Fits given bound ks' where
  empty k hk := h.empty k (hperm.mem_iff.2 hk)
  distinct := (hperm.map t.position?).nodup_iff.1 h.distinct

theorem foldlM_bindKeyword_perm (hvalues : ∀ k ∈ ks, k.value ≠ .null) (hperm : ks.Perm ks')
    (h : ks.foldlM (t.bindKeyword given) bound = .ok named) :
    ks'.foldlM (t.bindKeyword given) bound = .ok named := by
  have hfits : t.Fits given bound ks := (exists_foldlM_bindKeyword_iff hvalues).1 ⟨named, h⟩
  have hvalues' : ∀ k ∈ ks', k.value ≠ .null := fun k hk => hvalues k (hperm.mem_iff.2 hk)
  obtain ⟨named', h'⟩ := (exists_foldlM_bindKeyword_iff hvalues').2 (hfits.perm hperm)
  rw [h', Except.ok.injEq]
  -- a position holds the value of the keyword that asks for it, or what it held before
  apply Array.ext_getElem?
  intro p
  by_cases hp : ∃ k ∈ ks, t.position? k = some p
  · obtain ⟨k, hk, hp⟩ := hp
    rw [foldlM_bindKeyword_of_mem h hfits.distinct hk hp,
      foldlM_bindKeyword_of_mem h' (hfits.perm hperm).distinct (hperm.mem_iff.1 hk) hp]
  · push Not at hp
    rw [foldlM_bindKeyword_of_not_mem h hp,
      foldlM_bindKeyword_of_not_mem h' fun k hk => hp k (hperm.mem_iff.2 hk)]

end ParamTable

/-- Both are type errors, though maybe not the same. -/
def BothRefused {α : Type} (x y : Except Halt α) : Prop :=
  ∃ cause cause', x = .error (.type cause) ∧ y = .error (.type cause')

theorem BothRefused.bind {α β : Type} {x y : Except Halt α} (h : BothRefused x y) (k : α → Except Halt β) :
    BothRefused (x >>= k) (y >>= k) := by
  obtain ⟨cause, cause', rfl, rfl⟩ := h
  exact ⟨cause, cause', rfl, rfl⟩

section Permuted

variable {ks ks' : List Keyword} (hvalues : ∀ k ∈ ks, k.value ≠ .null) (hperm : ks.Perm ks')

include hvalues hperm

theorem ParamTable.foldlM_bindKeyword_perm_cases (t : ParamTable) (given : Nat) (bound : Array Attr) :
    ks.foldlM (t.bindKeyword given) bound = ks'.foldlM (t.bindKeyword given) bound ∨
    BothRefused (ks.foldlM (t.bindKeyword given) bound) (ks'.foldlM (t.bindKeyword given) bound) := by
  have hvalues' : ∀ k ∈ ks', k.value ≠ .null := fun k hk => hvalues k (hperm.mem_iff.2 hk)
  cases h : ks.foldlM (t.bindKeyword given) bound with
  | ok named => exact Or.inl (foldlM_bindKeyword_perm hvalues hperm h).symm
  | error e =>
    cases h' : ks'.foldlM (t.bindKeyword given) bound with
    | ok named =>
      rw [foldlM_bindKeyword_perm hvalues' hperm.symm h'] at h
      cases h
    | error e' =>
      right
      rcases foldlM_bindKeyword_error h with rfl | rfl <;>
        rcases foldlM_bindKeyword_error h' with rfl | rfl <;> exact ⟨_, _, rfl, rfl⟩

namespace Layout

variable (l : Layout) (args : Array Attr)

theorem bindArgs_perm_cases (target : Object) (t : ParamTable) :
    l.bindArgs target t args ks = l.bindArgs target t args ks' ∨
    BothRefused (l.bindArgs target t args ks) (l.bindArgs target t args ks') := by
  simp only [bindArgs, hperm.length_eq, hperm.isEmpty_eq]
  split
  · exact Or.inl rfl
  · split
    · exact Or.inl rfl
    · rcases t.foldlM_bindKeyword_perm_cases hvalues hperm args.size (t.buffer args) with heq | hrefused
      · rw [ParamTable.buffer] at heq
        rw [heq]
        exact Or.inl rfl
      · exact Or.inr (hrefused.bind _)

theorem prepare_perm_cases (h : Heap) (callable : Attr) (proven : Bool) :
    l.prepare h callable proven ks args = l.prepare h callable proven ks' args ∨
    BothRefused (l.prepare h callable proven ks args) (l.prepare h callable proven ks' args) := by
  rcases l.targets_or_refused h callable with ⟨target, context, t, htargets⟩ | ⟨cause, -, hrefused⟩
  · rw [prepare_of_targets htargets, prepare_of_targets htargets]
    rcases l.bindArgs_perm_cases hvalues hperm (supply args context) (h.object target) t with heq | hrefused
    · rw [heq]
      exact Or.inl rfl
    · exact Or.inr (hrefused.bind _)
  · rw [hrefused, hrefused]
    exact Or.inl rfl

end Layout

end Permuted

namespace Machine

variable {m : Machine} {s : State} {callable : Attr} {ks ks' : List Keyword}

/-- Two calls that only differ in the order of their keywords, none of which is empty, are both refused, or
run the same native on the same arguments, or both fault before it, where for both something is out of
reach. -/
theorem keyword_order (hvalues : ∀ k ∈ ks, k.value ≠ .null) (hperm : ks.Perm ks') (proven : Bool)
    (args : Array Attr) :
    (∃ cause cause', m.Refuses s callable proven ks args cause ∧
      m.Refuses s callable proven ks' args cause') ∨
    (∃ c, m.Runs s callable proven ks args c ∧ m.Runs s callable proven ks' args c) ∨
    (m.Faults s callable proven ks args ∧ m.Faults s callable proven ks' args ∧
      m.layout.OutOfReach s.heap callable proven ks args ∧
      m.layout.OutOfReach s.heap callable proven ks' args) := by
  rcases m.layout.prepare_perm_cases hvalues hperm args s.heap callable proven with
    heq | ⟨cause, cause', hrefused, hrefused'⟩
  · rcases alike_of_prepare_eq heq.symm with hruns | ⟨cause, hrefused, hrefused'⟩ | hfaults
    · exact Or.inr (Or.inl hruns)
    · exact Or.inl ⟨cause, cause, hrefused, hrefused'⟩
    · exact Or.inr (Or.inr hfaults)
  · exact Or.inl ⟨cause, cause', refuses_of_prepare hrefused, refuses_of_prepare hrefused'⟩

end Machine

namespace Sample

def forwards : List Keyword := [⟨8, 0, .int 20⟩, ⟨9, 1, .int 30⟩]

def backwards : List Keyword := [⟨9, 1, .int 30⟩, ⟨8, 0, .int 20⟩]

theorem perm_backwards : forwards.Perm backwards := List.Perm.swap _ _ _

end Sample

/-- The sample function runs on the same arguments either way. For the dangling method the same thing is out of
reach either way. -/
theorem Machine.keyword_order_sample :
    (∀ k ∈ Sample.forwards, k.value ≠ .null) ∧ Sample.forwards.Perm Sample.backwards ∧
    (∃ c, Sample.machine.Runs Sample.state (.ofObject ⟨1⟩) false Sample.forwards #[.null] c ∧
      Sample.machine.Runs Sample.state (.ofObject ⟨1⟩) false Sample.backwards #[.null] c) ∧
    Sample.machine.layout.OutOfReach Sample.danglings.heap (.ofObject ⟨2⟩) false Sample.forwards #[.null] ∧
    Sample.machine.layout.OutOfReach Sample.danglings.heap (.ofObject ⟨2⟩) false Sample.backwards #[.null] := by
  have hvalues : ∀ k ∈ Sample.forwards, k.value ≠ .null := by decide
  refine ⟨hvalues, Sample.perm_backwards, ?_, ?_⟩
  · have hruns : Sample.machine.Runs Sample.state (.ofObject ⟨1⟩) false Sample.forwards #[.null]
        ⟨.named "record", #[.int 1, .int 5, .int 20, .int 30]⟩ := runs_of_prepare rfl
    rcases keyword_order hvalues Sample.perm_backwards false #[.null] with
      ⟨cause, cause', hrefused, -⟩ | hboth | ⟨hfaults, -⟩
    · cases (hrefused fun _ _ => pure .null).symm.trans (hruns fun _ _ => pure .null)
    · exact hboth
    · exact absurd (Or.inl ⟨_, hruns⟩) hfaults.not_runs_or_refuses
  · have hfaults : Sample.machine.Faults Sample.danglings (.ofObject ⟨2⟩) false Sample.forwards #[.null] :=
      faults_of_prepare rfl
    rcases keyword_order hvalues Sample.perm_backwards false #[.null] with
      ⟨cause, cause', hrefused, -⟩ | ⟨c, hruns, -⟩ | ⟨-, -, hout⟩
    · exact absurd (Or.inr ⟨cause, hrefused⟩) hfaults.not_runs_or_refuses
    · exact absurd (Or.inl ⟨c, hruns⟩) hfaults.not_runs_or_refuses
    · exact hout

/-- The dangling method is neither refused nor runs anything, whichever keyword comes first: both calls
fault. -/
theorem Machine.keyword_order_dangling :
    (∀ k ∈ Sample.forwards, k.value ≠ .null) ∧ Sample.forwards.Perm Sample.backwards ∧
    (Sample.machine.Faults Sample.danglings (.ofObject ⟨2⟩) false Sample.forwards #[.null] ∧
      Sample.machine.Faults Sample.danglings (.ofObject ⟨2⟩) false Sample.backwards #[.null]) ∧
    ¬ ((∃ cause cause',
        Sample.machine.Refuses Sample.danglings (.ofObject ⟨2⟩) false Sample.forwards #[.null] cause ∧
        Sample.machine.Refuses Sample.danglings (.ofObject ⟨2⟩) false Sample.backwards #[.null] cause') ∨
      ∃ c, Sample.machine.Runs Sample.danglings (.ofObject ⟨2⟩) false Sample.forwards #[.null] c ∧
        Sample.machine.Runs Sample.danglings (.ofObject ⟨2⟩) false Sample.backwards #[.null] c) := by
  have hfaults : Sample.machine.Faults Sample.danglings (.ofObject ⟨2⟩) false Sample.forwards #[.null] :=
    faults_of_prepare rfl
  refine ⟨by decide, Sample.perm_backwards, ⟨hfaults, faults_of_prepare rfl⟩, ?_⟩
  rintro (⟨cause, cause', hrefused, -⟩ | ⟨c, hruns, -⟩)
  · exact hfaults.not_runs_or_refuses (Or.inr ⟨cause, hrefused⟩)
  · exact hfaults.not_runs_or_refuses (Or.inl ⟨c, hruns⟩)

end ObjectRuntime
