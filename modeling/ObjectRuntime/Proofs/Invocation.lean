import ObjectRuntime.Proofs.Binding

/-! When a call binds, and what it then runs. `Bindable` states what binding asks of the arguments and
the defaults, and `Binds` what the native gets at each position; neither mentions the loops. The main
statement says that invoking runs one native on the bound arguments iff the call is bindable, and
otherwise raises a type error before anything runs. -/

namespace ObjectRuntime

/-- A position after the positional arguments that no keyword asks for. -/
def ParamTable.IsOpen (t : ParamTable) (given : Nat) (ks : List Keyword) (p : Nat) : Prop :=
  given ≤ p ∧ p < t.max.toNat ∧ ∀ k ∈ ks, t.position? k ≠ some p

/-- The buffer of a call before any keyword. -/
def ParamTable.buffer (t : ParamTable) (args : Array Attr) : Array Attr :=
  args ++ Array.replicate (t.max.toNat - args.size) Attr.null

namespace Layout

/-- The arity lies within the bounds, the keywords ask for distinct positions after the positional
arguments, and every position left over has a default. -/
structure Bindable (l : Layout) (target : Object) (t : ParamTable) (given : Nat)
    (ks : List Keyword) : Prop where
  enough : t.min.toNat ≤ given + ks.length
  fitting : given + ks.length ≤ t.max.toNat
  resolved : ∀ k ∈ ks, ∃ p, t.position? k = some p ∧ given ≤ p ∧ p < t.max.toNat
  distinct : (ks.map t.position?).Nodup
  covered : ∀ p, t.IsOpen given ks p → t.min.toNat ≤ p ∧ ∃ a, a ≠ .null ∧
    target.slots[l.functionSize.toNat + (p - t.min.toNat)]? = some a

/-- What the native gets: each positional argument in its place, each keyword at its position, and a
default everywhere else. -/
structure Binds (l : Layout) (target : Object) (t : ParamTable) (args : Array Attr)
    (ks : List Keyword) (bound : Array Attr) : Prop where
  size : bound.size = t.max.toNat
  positional : ∀ p < args.size, bound[p]? = args[p]?
  named : ∀ k ∈ ks, ∀ p, t.position? k = some p → bound[p]? = some k.value
  defaulted : ∀ p, t.IsOpen args.size ks p →
    bound[p]? = target.slots[l.functionSize.toNat + (p - t.min.toNat)]?

end Layout

section Buffer

variable {t : ParamTable} {args named : Array Attr} {ks : List Keyword} {p : Nat}

theorem ParamTable.buffer_size (h : args.size ≤ t.max.toNat) : (t.buffer args).size = t.max.toNat := by
  simp only [buffer, Array.size_append, Array.size_replicate]
  omega

theorem ParamTable.buffer_of_lt (h : p < args.size) : (t.buffer args)[p]? = args[p]? := by
  rw [buffer, Array.getElem?_append_left h]

theorem ParamTable.buffer_of_le (h : args.size ≤ p) :
    (t.buffer args)[p]? = some .null ↔ p < t.max.toNat := by
  rw [buffer, Array.getElem?_append_right h, Array.getElem?_replicate]
  split
  · simp only [true_iff]; omega
  · simp only [reduceCtorEq, false_iff]; omega

/-- The keywords leave the positional arguments alone. -/
theorem ParamTable.foldlM_bindKeyword_positional
    (h : ks.foldlM (t.bindKeyword args.size) (t.buffer args) = .ok named)
    (hfits : t.Fits args.size (t.buffer args) ks) (hp : p < args.size) : named[p]? = args[p]? := by
  rw [foldlM_bindKeyword_of_not_mem h fun k hk heq => ?_, buffer_of_lt hp]
  obtain ⟨q, hq, hle, -⟩ := hfits.empty k hk
  obtain rfl : p = q := Option.some.inj (heq.symm.trans hq)
  omega

/-- After the keywords, just the open positions are empty among those after the positional
arguments. -/
theorem ParamTable.foldlM_bindKeyword_empty_iff
    (h : ks.foldlM (t.bindKeyword args.size) (t.buffer args) = .ok named)
    (hdistinct : (ks.map t.position?).Nodup) (hvalues : ∀ k ∈ ks, k.value ≠ .null)
    (hp : args.size ≤ p) : named[p]? = some .null ↔ t.IsOpen args.size ks p := by
  refine ⟨?_, ?_⟩
  · intro hnull
    have hfree : ∀ k ∈ ks, t.position? k ≠ some p := fun k hk heq =>
      hvalues k hk (Option.some.inj ((foldlM_bindKeyword_of_mem h hdistinct hk heq).symm.trans hnull))
    rw [foldlM_bindKeyword_of_not_mem h hfree] at hnull
    exact ⟨hp, (buffer_of_le hp).1 hnull, hfree⟩
  · intro h
    obtain ⟨-, hlt, hfree⟩ := h
    rw [foldlM_bindKeyword_of_not_mem h hfree]
    exact (buffer_of_le hp).2 hlt

end Buffer

theorem Heap.load_error {h : Heap} {o : ObjectRef} {pos : Nat} {e : Halt}
    (herr : h.load o pos = .error e) : e = .fault := by
  unfold load at herr
  split at herr
  · cases herr
  · exact (Except.error.inj herr).symm

namespace Layout

variable {l : Layout} {target : Object} {t : ParamTable} {args bound : Array Attr}
  {ks : List Keyword} {e : Halt}

/-- Binding is the identity on a full list of positional arguments; otherwise the arity is checked and
both loops run. -/
theorem bindArgs_cases (l : Layout) (target : Object) (t : ParamTable) (args : Array Attr)
    (ks : List Keyword) :
    (args.size = t.max.toNat ∧ ks = [] ∧ l.bindArgs target t args ks = .ok args) ∨
    ((args.size + ks.length < t.min.toNat ∨ t.max.toNat < args.size + ks.length) ∧
      l.bindArgs target t args ks = .error (.type .wrongArgumentCount)) ∨
    ((t.min.toNat ≤ args.size + ks.length ∧ args.size + ks.length ≤ t.max.toNat) ∧
      l.bindArgs target t args ks =
        ks.foldlM (t.bindKeyword args.size) (t.buffer args) >>=
          (List.range' args.size (t.max.toNat - args.size)).foldlM
            (l.fillDefault target t.min.toNat)) := by
  unfold bindArgs
  by_cases hfast : args.size = t.max.toNat ∧ ks.isEmpty
  · exact Or.inl ⟨hfast.1, List.isEmpty_iff.1 hfast.2, if_pos hfast⟩
  · refine Or.inr ?_
    simp only [if_neg hfast]
    split
    · exact Or.inl ⟨‹_›, rfl⟩
    · exact Or.inr ⟨by omega, rfl⟩

/-- A call that binds was given everything by position, or went through both loops. -/
theorem bindArgs_eq_ok (h : l.bindArgs target t args ks = .ok bound) :
    (args.size = t.max.toNat ∧ ks = [] ∧ bound = args) ∨
    (args.size + ks.length ≤ t.max.toNat ∧
      ∃ named, ks.foldlM (t.bindKeyword args.size) (t.buffer args) = .ok named ∧
        (List.range' args.size (t.max.toNat - args.size)).foldlM
          (l.fillDefault target t.min.toNat) named = .ok bound) := by
  rcases bindArgs_cases l target t args ks with ⟨hsize, hks, hfast⟩ | ⟨-, herr⟩ | ⟨harity, hloops⟩
  · rw [hfast] at h
    exact Or.inl ⟨hsize, hks, (Except.ok.inj h).symm⟩
  · rw [herr] at h
    cases h
  · rw [hloops, bind_eq_ok_iff] at h
    exact Or.inr ⟨harity.2, h⟩

theorem mem_positions_iff {p : Nat} :
    p ∈ List.range' args.size (t.max.toNat - args.size) ↔ args.size ≤ p ∧ p < t.max.toNat := by
  rw [List.mem_range'_1]
  omega

theorem bindable_of_bindArgs (hmin : t.min.toNat ≤ t.max.toNat) (hvalues : ∀ k ∈ ks, k.value ≠ .null)
    (h : l.bindArgs target t args ks = .ok bound) : l.Bindable target t args.size ks := by
  rcases bindArgs_cases l target t args ks with
    ⟨hsize, rfl, -⟩ | ⟨-, herr⟩ | ⟨harity, hloops⟩
  · refine ⟨?_, ?_, nofun, List.nodup_nil, fun p hp => ?_⟩
    · simpa [hsize] using hmin
    · simp [hsize]
    · exact absurd hp.2.1 (by have := hp.1; omega)
  · rw [herr] at h; cases h
  · rw [hloops, bind_eq_ok_iff] at h
    obtain ⟨named, hnamed, hfill⟩ := h
    have hfits := (ParamTable.exists_foldlM_bindKeyword_iff hvalues).1 ⟨named, hnamed⟩
    refine ⟨harity.1, harity.2, fun k hk => ?_, hfits.distinct, fun p hp => ?_⟩
    · obtain ⟨p, hp, hle, hnull⟩ := hfits.empty k hk
      exact ⟨p, hp, hle, (ParamTable.buffer_of_le hle).1 hnull⟩
    · have hnull := (ParamTable.foldlM_bindKeyword_empty_iff hnamed hfits.distinct hvalues hp.1).2 hp
      obtain ⟨a, ha⟩ := exists_foldlM_fillDefault_iff.1 ⟨bound, hfill⟩ p
        (mem_positions_iff.2 ⟨hp.1, hp.2.1⟩) hnull
      obtain ⟨hle, -, hne, hslot⟩ := defaultFor_eq_ok_iff.1 ha
      exact ⟨hle, a, hne, hslot⟩

theorem exists_bindArgs_of_bindable (hvalues : ∀ k ∈ ks, k.value ≠ .null)
    (hsum : ∀ p, t.IsOpen args.size ks p → l.functionSize.toNat + (p - t.min.toNat) < 2 ^ 64)
    (h : l.Bindable target t args.size ks) : ∃ bound, l.bindArgs target t args ks = .ok bound := by
  rcases bindArgs_cases l target t args ks with
    ⟨-, -, hfast⟩ | ⟨harity, -⟩ | ⟨-, hloops⟩
  · exact ⟨args, hfast⟩
  · have := h.enough
    have := h.fitting
    omega
  · have hfits : t.Fits args.size (t.buffer args) ks := by
      refine ⟨fun k hk => ?_, h.distinct⟩
      obtain ⟨p, hp, hle, hlt⟩ := h.resolved k hk
      exact ⟨p, hp, hle, (ParamTable.buffer_of_le hle).2 hlt⟩
    obtain ⟨named, hnamed⟩ := (ParamTable.exists_foldlM_bindKeyword_iff hvalues).2 hfits
    obtain ⟨bound, hfill⟩ : ∃ bound, (List.range' args.size (t.max.toNat - args.size)).foldlM
        (l.fillDefault target t.min.toNat) named = .ok bound := by
      refine exists_foldlM_fillDefault_iff.2 fun p hp hnull => ?_
      have hopen := (ParamTable.foldlM_bindKeyword_empty_iff hnamed h.distinct hvalues
        (mem_positions_iff.1 hp).1).1 hnull
      obtain ⟨hle, a, hne, hslot⟩ := h.covered p hopen
      exact ⟨a, defaultFor_eq_ok_iff.2 ⟨hle, hsum p hopen, hne, hslot⟩⟩
    exact ⟨bound, by rw [hloops, hnamed]; exact hfill⟩

theorem binds_of_bindArgs (hvalues : ∀ k ∈ ks, k.value ≠ .null)
    (h : l.bindArgs target t args ks = .ok bound) : l.Binds target t args ks bound := by
  rcases bindArgs_cases l target t args ks with
    ⟨hsize, rfl, hfast⟩ | ⟨-, herr⟩ | ⟨harity, hloops⟩
  · rw [hfast] at h
    cases h
    exact ⟨hsize, fun _ _ => rfl, nofun, fun p hp => absurd hp.2.1 (by have := hp.1; omega)⟩
  · rw [herr] at h; cases h
  · rw [hloops, bind_eq_ok_iff] at h
    obtain ⟨named, hnamed, hfill⟩ := h
    have hfits := (ParamTable.exists_foldlM_bindKeyword_iff hvalues).1 ⟨named, hnamed⟩
    refine ⟨?_, ?_, ?_, ?_⟩
    · rw [foldlM_fillDefault_size hfill, ParamTable.foldlM_bindKeyword_size hnamed,
        ParamTable.buffer_size (by omega)]
    · intro p hp
      rw [foldlM_fillDefault_of_full hfill fun hmem => absurd (mem_positions_iff.1 hmem).1 (by omega)]
      exact ParamTable.foldlM_bindKeyword_positional hnamed hfits hp
    · intro k hk p hp
      have hvalue := ParamTable.foldlM_bindKeyword_of_mem hnamed hfits.distinct hk hp
      rw [foldlM_fillDefault_of_full hfill fun _ => ?_, hvalue]
      rw [hvalue]
      exact fun heq => hvalues k hk (Option.some.inj heq)
    · intro p hp
      have hnull := (ParamTable.foldlM_bindKeyword_empty_iff hnamed hfits.distinct hvalues hp.1).2 hp
      obtain ⟨a, ha, hbound⟩ := foldlM_fillDefault_of_empty hfill
        (mem_positions_iff.2 ⟨hp.1, hp.2.1⟩) hnull
      rw [hbound, (defaultFor_eq_ok_iff.1 ha).2.2.2]

/-- What can go wrong while binding: a type error, if not that of a method taken from its class, or a default
that lies further than positions reach. -/
theorem bindArgs_error_cases (h : l.bindArgs target t args ks = .error e) :
    (∃ cause, cause ≠ .unboundMethod ∧ e = .type cause) ∨
    (e = .fault ∧ ∃ named p, ks.foldlM (t.bindKeyword args.size) (t.buffer args) = .ok named ∧
      args.size ≤ p ∧ p < t.max.toNat ∧ named[p]? = some .null ∧
      2 ^ 64 ≤ l.functionSize.toNat + (p - t.min.toNat)) := by
  rcases bindArgs_cases l target t args ks with
    ⟨-, -, hfast⟩ | ⟨-, herr⟩ | ⟨-, hloops⟩
  · rw [hfast] at h; cases h
  · rw [herr] at h
    exact Or.inl ⟨.wrongArgumentCount, nofun, (Except.error.inj h).symm⟩
  · rw [hloops, bind_eq_error_iff] at h
    rcases h with h | ⟨named, hnamed, h⟩
    · rcases ParamTable.foldlM_bindKeyword_error h with rfl | rfl
      · exact Or.inl ⟨.unexpectedKeyword, nofun, rfl⟩
      · exact Or.inl ⟨.parameterOccupied, nofun, rfl⟩
    · obtain ⟨p, hmem, hnull, hp, -⟩ := foldlM_fillDefault_error_first List.pairwise_lt_range' h
      obtain ⟨hle, hlt⟩ := mem_positions_iff.1 hmem
      rcases defaultFor_error hp with rfl | rfl | ⟨rfl, -, hover⟩
      · exact Or.inl ⟨.argumentMissing, nofun, rfl⟩
      · exact Or.inl ⟨.defaultMissing, nofun, rfl⟩
      · exact Or.inr ⟨rfl, named, p, hnamed, hle, hlt, hnull, hover⟩

/-- Where positions reach as far as the defaults, only type errors are left. -/
theorem bindArgs_error (hvalues : ∀ k ∈ ks, k.value ≠ .null)
    (hsum : ∀ p, t.IsOpen args.size ks p → l.functionSize.toNat + (p - t.min.toNat) < 2 ^ 64)
    (h : l.bindArgs target t args ks = .error e) : ∃ cause, cause ≠ .unboundMethod ∧ e = .type cause := by
  rcases bindArgs_error_cases h with h | ⟨-, named, p, hnamed, hle, -, hnull, hover⟩
  · exact h
  · have hfits := (ParamTable.exists_foldlM_bindKeyword_iff hvalues).1 ⟨named, hnamed⟩
    have hopen :=
      (ParamTable.foldlM_bindKeyword_empty_iff hnamed hfits.distinct hvalues hle).1 hnull
    exact absurd (hsum p hopen) (Nat.not_lt.2 hover)

/-- `callable` comes to `target` with the parameters `t`, reached through a wrapper of `context` if
there is one. -/
structure Targets (l : Layout) (h : Heap) (callable : Attr) (target : ObjectRef)
    (context : Option Attr) (t : ParamTable) : Prop where
  unwrap : ∃ a, l.unwrap h callable = (a, context) ∧ a.object? = some target
  params : ∃ lower, h.loadChecked target l.argsSlot = .ok (.args lower t)

theorem prepare_of_targets {h : Heap} {callable : Attr} {o : ObjectRef} {context : Option Attr}
    (ht : l.Targets h callable o context t) (proven : Bool) :
    l.prepare h callable proven ks args =
      l.bindArgs (h.object o) t (supply args context) ks >>= fun bound =>
        l.dispatch h o proven (bound.getD 0 .null) >>= fun func => .ok ⟨func, bound⟩ := by
  obtain ⟨a, hunwrap, hobject⟩ := ht.unwrap
  obtain ⟨lower, hparams⟩ := ht.params
  simp only [prepare, hunwrap, hobject, hparams]
  rfl

theorem prepare_eq_ok_iff {h : Heap} {callable : Attr} {o : ObjectRef} {context : Option Attr}
    (ht : l.Targets h callable o context t) {proven : Bool} {func : NativeRef} :
    l.prepare h callable proven ks args = .ok ⟨func, bound⟩ ↔
      l.bindArgs (h.object o) t (supply args context) ks = .ok bound ∧
        l.dispatch h o proven (bound.getD 0 .null) = .ok func := by
  rw [prepare_of_targets ht, bind_eq_ok_iff]
  refine ⟨?_, ?_⟩
  · rintro ⟨b, hbind, hrest⟩
    obtain ⟨f, hdispatch, hdone⟩ := bind_eq_ok_iff.1 hrest
    cases hdone
    exact ⟨hbind, hdispatch⟩
  · rintro ⟨hbind, hdispatch⟩
    exact ⟨bound, hbind, bind_eq_ok_iff.2 ⟨func, hdispatch, rfl⟩⟩

/-- In an accepted context the function of the target is run, whether it was known to be there or is
found to be. -/
theorem dispatch_of_acceptsContext {h : Heap} {o : ObjectRef} {proven : Bool} {context : Attr}
    (hcontext : h.acceptsContext context) (hexposed : proven ∨ (h.object o).hasAttr l.fnSlot) :
    l.dispatch h o proven context = l.functionOf h o := by
  have hexposed : (proven || (h.object o).hasAttr l.fnSlot) = true := by
    rcases hexposed with h | h <;> simp [h]
  simp only [dispatch, hcontext, Bool.not_true, Bool.false_eq_true, if_false, hexposed, if_true]

theorem functionOf_error {h : Heap} {o : ObjectRef} (herr : l.functionOf h o = .error e) :
    e = .fault ∨ e = .type .notCallable := by
  unfold functionOf at herr
  rcases bind_eq_error_iff.1 herr with herr | ⟨a, -, herr⟩
  · exact Or.inl (Heap.load_error herr)
  · split at herr
    · cases herr
    · rcases bind_eq_error_iff.1 herr with herr | ⟨b, -, herr⟩
      · exact Or.inl (Heap.load_error herr)
      · split at herr
        · cases herr
        · exact Or.inr (Except.error.inj herr).symm
    · exact Or.inr (Except.error.inj herr).symm

theorem dispatch_error {h : Heap} {o : ObjectRef} {proven : Bool} {context : Attr}
    (herr : l.dispatch h o proven context = .error e) : e = .fault ∨ e = .type .notCallable := by
  unfold dispatch at herr
  split at herr
  · cases herr
  · split at herr
    · exact functionOf_error herr
    · exact Or.inr (Except.error.inj herr).symm

end Layout

namespace Machine

/-- Invoking does nothing but run this one call, whatever the natives do. -/
def Runs (m : Machine) (s : State) (callable : Attr) (proven : Bool) (keywords : List Keyword)
    (args : Array Attr) (c : Call) : Prop :=
  ∀ natives, m.invoke natives callable proven keywords args s = natives.run c s

/-- Invoking raises a type error and does nothing else, whatever the natives would do. -/
def Refuses (m : Machine) (s : State) (callable : Attr) (proven : Bool) (keywords : List Keyword)
    (args : Array Attr) (cause : TypeFault) : Prop :=
  ∀ natives, m.invoke natives callable proven keywords args s = .error (.type cause) s

variable {m : Machine} {s : State} {callable : Attr} {proven : Bool} {keywords : List Keyword}
  {args : Array Attr} {c : Call} {cause : TypeFault}

theorem invoke_eq (natives : Natives) : m.invoke natives callable proven keywords args s =
    (ofExcept (m.layout.prepare s.heap callable proven keywords args) >>= natives.run) s := rfl

theorem runs_of_prepare (h : m.layout.prepare s.heap callable proven keywords args = .ok c) :
    m.Runs s callable proven keywords args c := by
  intro natives
  rw [invoke_eq, h]
  rfl

theorem refuses_of_prepare
    (h : m.layout.prepare s.heap callable proven keywords args = .error (.type cause)) :
    m.Refuses s callable proven keywords args cause := by
  intro natives
  rw [invoke_eq, h]
  rfl

/-- A run of one of the program's own natives tells which call was prepared: natives that answer at once
leave just that call in the record. -/
theorem prepare_of_runs {name : String} {bound : Array Attr}
    (h : m.Runs s callable proven keywords args ⟨.named name, bound⟩) :
    m.layout.prepare s.heap callable proven keywords args = .ok ⟨.named name, bound⟩ := by
  have heq := h fun _ _ => pure .null
  rw [invoke_eq] at heq
  cases hprepare : m.layout.prepare s.heap callable proven keywords args with
  | error e =>
    rw [hprepare] at heq
    cases heq
  | ok c =>
    rw [hprepare] at heq
    obtain ⟨native, got⟩ := c
    cases native with
    | unboundMethod => cases heq
    | named other =>
      have hstate := (EStateM.Result.ok.inj heq).2
      have hcalls := congrArg State.calls hstate
      rw [(Array.push_eq_push.1 hcalls).1]

theorem refuses_iff (hcause : cause ≠ .unboundMethod) :
    m.Refuses s callable proven keywords args cause ↔
      m.layout.prepare s.heap callable proven keywords args = .error (.type cause) := by
  refine ⟨fun h => ?_, refuses_of_prepare⟩
  have heq := h fun _ _ => pure .null
  rw [invoke_eq] at heq
  cases hprepare : m.layout.prepare s.heap callable proven keywords args with
  | error e =>
    rw [hprepare] at heq
    rw [(EStateM.Result.error.inj heq).1]
  | ok c =>
    rw [hprepare] at heq
    obtain ⟨native, bound⟩ := c
    cases native with
    | unboundMethod =>
      have hinj : Halt.type .unboundMethod = Halt.type cause := (EStateM.Result.error.inj heq).1
      exact absurd (by simpa [Halt.type] using hinj.symm) hcause
    | named name => cases heq

/-- A call that fails was refused while binding, or asked for a method of a class, or is a failure of the
native that it ran. -/
theorem invoke_error_cases {natives : Natives} {e : Halt} {s' : State}
    (h : m.invoke natives callable proven keywords args s = .error e s') :
    m.layout.prepare s.heap callable proven keywords args = .error e ∨ e = .type .unboundMethod ∨
      ∃ func bound, m.Runs s callable proven keywords args ⟨.named func, bound⟩ := by
  rw [invoke_eq] at h
  cases hprepare : m.layout.prepare s.heap callable proven keywords args with
  | error e' =>
    rw [hprepare] at h
    rw [(EStateM.Result.error.inj h).1]
    exact Or.inl rfl
  | ok c =>
    rw [hprepare] at h
    obtain ⟨native, bound⟩ := c
    cases native with
    | unboundMethod => exact Or.inr (Or.inl (EStateM.Result.error.inj h).1.symm)
    | named name => exact Or.inr (Or.inr ⟨name, bound, runs_of_prepare hprepare⟩)

/-- A refused call runs nothing: natives that always answer would make it succeed, and the native that
stands in for methods of a class raises another error. -/
theorem Refuses.not_runs (h : m.Refuses s callable proven keywords args cause)
    (hcause : cause ≠ .unboundMethod) : ¬ m.Runs s callable proven keywords args c := by
  intro hruns
  have heq := (h fun _ _ => pure .null).symm.trans (hruns fun _ _ => pure .null)
  obtain ⟨native, bound⟩ := c
  cases native with
  | unboundMethod =>
    have hinj : Halt.type cause = Halt.type .unboundMethod := (EStateM.Result.error.inj heq).1
    exact hcause (by simpa [Halt.type] using hinj)
  | named name => cases heq

section Bindable

variable (proven) {target : ObjectRef} {context : Option Attr} {t : ParamTable} {func : NativeRef}
  (htargets : m.layout.Targets s.heap callable target context t)
  (hvalues : ∀ k ∈ keywords, k.value ≠ .null)
  (hsum : ∀ p, t.IsOpen (supply args context).size keywords p →
    m.layout.functionSize.toNat + (p - t.min.toNat) < 2 ^ 64)

include htargets hvalues hsum

theorem runs_of_bindable (hexposed : (s.heap.object target).hasAttr m.layout.fnSlot)
    (hfunc : m.layout.functionOf s.heap target = .ok func)
    (hcontext : ∀ bound, m.layout.bindArgs (s.heap.object target) t (supply args context) keywords
      = .ok bound → s.heap.acceptsContext (bound.getD 0 .null))
    (h : m.layout.Bindable (s.heap.object target) t (supply args context).size keywords) :
    ∃ bound, m.layout.Binds (s.heap.object target) t (supply args context) keywords bound ∧
      m.Runs s callable proven keywords args ⟨func, bound⟩ := by
  obtain ⟨bound, hbound⟩ := Layout.exists_bindArgs_of_bindable hvalues hsum h
  refine ⟨bound, Layout.binds_of_bindArgs hvalues hbound, runs_of_prepare ?_⟩
  rw [Layout.prepare_of_targets htargets, hbound]
  change m.layout.dispatch s.heap target proven (bound.getD 0 .null) >>= _ = _
  rw [Layout.dispatch_of_acceptsContext (hcontext bound hbound) (Or.inr hexposed), hfunc]
  rfl

theorem refuses_of_not_bindable (hbounds : t.min ≤ t.max)
    (h : ¬ m.layout.Bindable (s.heap.object target) t (supply args context).size keywords) :
    ∃ cause, cause ≠ .unboundMethod ∧ m.Refuses s callable proven keywords args cause := by
  rcases hbind : m.layout.bindArgs (s.heap.object target) t (supply args context) keywords
    with e | bound
  · obtain ⟨cause, hcause, rfl⟩ := Layout.bindArgs_error hvalues hsum hbind
    refine ⟨cause, hcause, refuses_of_prepare ?_⟩
    rw [Layout.prepare_of_targets htargets, hbind]
    rfl
  · exact absurd (Layout.bindable_of_bindArgs hbounds hvalues hbind) h

end Bindable

end Machine

/-! A program with one function of three parameters after the context, of which the last two have names
and all have defaults, and a wrapper that binds a context to it. -/

namespace Sample

def layout : Layout := ⟨⟨0, 1⟩, ⟨1, 2⟩, ⟨2, 3⟩, ⟨3, 4⟩, ⟨4, 5⟩, ⟨5, 6⟩, 3⟩

def params : ParamTable := ⟨1, 4, #[⟨8, 2⟩, ⟨9, 3⟩]⟩

def function : Object :=
  ⟨⟨#[1, 2, 3]⟩, 0, .immutable,
    #[.null, .args 0 params, .callable none (.named "record"), .int 5, .int 6, .int 7]⟩

def wrapper : Object :=
  ⟨⟨#[1, 0, 0, 0, 5, 6]⟩, 0, .heap, #[.null, .null, .null, .null, .ofObject ⟨0⟩, .int 1]⟩

def machine : Machine where
  layout := layout
  capabilities := .none
  builtins := ⟨⟨0⟩, ⟨0⟩, ⟨0⟩, .unboundMethod, none, none, none, none⟩
  reserves _ := true

def state : State := ⟨⟨#[function, wrapper], #[]⟩, .ofBudget none, #[]⟩

def keywords : List Keyword := [⟨9, 1, .int 30⟩]

theorem targets : layout.Targets state.heap (.ofObject ⟨1⟩) ⟨0⟩ (some (.int 1)) params :=
  ⟨⟨.ofObject ⟨0⟩, rfl, rfl⟩, 0, rfl⟩

theorem isOpen_iff {p : Nat} : params.IsOpen 1 keywords p ↔ p = 1 ∨ p = 2 := by
  refine ⟨?_, ?_⟩
  · intro h
    obtain ⟨hle, hlt, hfree⟩ := h
    have hlt : p < 4 := hlt
    have hne : p ≠ 3 := fun heq => hfree _ (List.mem_singleton.2 rfl) (heq ▸ rfl)
    omega
  · have hposition : ∀ k ∈ keywords, params.position? k = some 3 := by decide
    rintro (rfl | rfl) <;>
      exact ⟨by decide, by decide, fun k hk => by rw [hposition k hk]; decide⟩

theorem bindable : layout.Bindable function params 1 keywords := by
  refine ⟨by decide, by decide, fun k hk => ?_, by decide, fun p hp => ?_⟩
  · obtain rfl := List.mem_singleton.1 hk
    exact ⟨3, rfl, by decide, by decide⟩
  · obtain rfl | rfl := isOpen_iff.1 hp
    · exact ⟨by decide, .int 5, by decide, rfl⟩
    · exact ⟨by decide, .int 6, by decide, rfl⟩

end Sample

end ObjectRuntime
