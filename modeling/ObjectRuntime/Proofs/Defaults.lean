import ObjectRuntime.Proofs.Faults
import ObjectRuntime.Proofs.HeapShape

/-! Defaults under writing. The defaults of a function lie after the slots that say what is called and with
which parameters, so to replace one is seen by the calls that leave its parameter to the default, and by no
other. What binding reads of a target is its defaults and nothing else, and what a call reads of the rest of
the heap is special slots and shapes. -/

namespace ObjectRuntime

/-! ### Binding -/

namespace Layout

variable {l : Layout} {target target' : Object} {t : ParamTable} {args bound : Array Attr}
  {ks : List Keyword} {ps : List Nat} {min p i : Nat} {v : Attr} {e : Halt}

theorem defaultFor_congr (h : min ≤ p → target'.slots[l.functionSize.toNat + (p - min)]? =
    target.slots[l.functionSize.toNat + (p - min)]?) :
    l.defaultFor target' min p = l.defaultFor target min p := by
  unfold defaultFor
  by_cases hp : p < min
  · rw [if_pos hp, if_pos hp]
  · rw [if_neg hp, if_neg hp]
    rcases Nat.lt_or_ge (l.functionSize.toNat + (p - min)) (2 ^ 64) with hsum | hsum
    · simp only [defaultPos?_of_lt hsum, h (Nat.not_lt.1 hp)]
    · simp only [defaultPos?_of_le hsum]

theorem foldlM_fillDefault_congr
    (h : ∀ p ∈ ps, bound[p]? = some .null → l.defaultFor target' min p = l.defaultFor target min p) :
    ps.foldlM (l.fillDefault target' min) bound = ps.foldlM (l.fillDefault target min) bound := by
  induction ps generalizing bound with
  | nil => rfl
  | cons p ps ih =>
    have hhead : l.fillDefault target' min bound p = l.fillDefault target min bound p := by
      unfold fillDefault
      split
      · rename_i hnull
        rw [h p List.mem_cons_self hnull]
      · rfl
    rw [List.foldlM_cons, List.foldlM_cons, hhead]
    cases hfill : l.fillDefault target min bound p with
    | error e => rfl
    | ok b =>
      exact ih fun q hq hnull =>
        h q (List.mem_cons_of_mem _ hq) ((fillDefault_empty_iff hfill).1 hnull).1

/-- Binding reads of its target just the defaults of the positions that are left. -/
theorem bindArgs_congr (h : ∀ p, t.IsLeft args.size ks p →
    l.defaultFor target' t.min.toNat p = l.defaultFor target t.min.toNat p) :
    l.bindArgs target' t args ks = l.bindArgs target t args ks := by
  simp only [bindArgs]
  split
  · rfl
  · split
    · rfl
    · change ks.foldlM (t.bindKeyword args.size) (t.buffer args) >>= _ =
        ks.foldlM (t.bindKeyword args.size) (t.buffer args) >>= _
      cases hnamed : ks.foldlM (t.bindKeyword args.size) (t.buffer args) with
      | error e => rfl
      | ok named =>
        exact foldlM_fillDefault_congr fun p hp hnull =>
          h p ((ParamTable.foldlM_bindKeyword_isLeft_iff hnamed (mem_positions_iff.1 hp).1).1 hnull)

theorem defaultFor_min_add (hslot : target.slots[l.functionSize.toNat + i]? = some v) {a : Attr}
    (h : l.defaultFor target min (min + i) = .ok a) : a = v ∧ v ≠ .null := by
  obtain ⟨-, -, hne, ha⟩ := defaultFor_eq_ok_iff.1 h
  rw [Nat.add_sub_cancel_left, hslot] at ha
  obtain rfl := Option.some.inj ha
  exact ⟨rfl, hne⟩

/-- A position that is left gets its default, and without one the call is refused. -/
theorem bindArgs_of_isLeft (hroom : l.functionSize.toNat + i < 2 ^ 64)
    (hslot : target.slots[l.functionSize.toNat + i]? = some v)
    (hleft : t.IsLeft args.size ks (t.min.toNat + i)) :
    (∀ bound, l.bindArgs target t args ks = .ok bound → bound[t.min.toNat + i]? = some v) ∧
    (v = .null → ∃ cause, l.bindArgs target t args ks = .error (.type cause)) := by
  have hbound : ∀ bound, l.bindArgs target t args ks = .ok bound →
      bound[t.min.toNat + i]? = some v ∧ v ≠ .null := by
    intro bound h
    obtain ⟨a, ha, hdefault⟩ := (keeps_of_bindArgs h).defaulted _ hleft.1 hleft.2.1 hleft.2.2
    obtain ⟨rfl, hne⟩ := defaultFor_min_add hslot hdefault
    exact ⟨ha, hne⟩
  refine ⟨fun bound h => (hbound bound h).1, fun hnull => ?_⟩
  cases hbind : l.bindArgs target t args ks with
  | ok bound => exact absurd hnull (hbound bound hbind).2
  | error e =>
    rcases bindArgs_error_cases hbind with ⟨cause, -, rfl⟩ | ⟨rfl, -⟩
    · exact ⟨cause, rfl⟩
    · -- the position that is left comes before any that lies too far
      obtain ⟨-, -, p, -, hover, hearlier⟩ := bindArgs_eq_fault_iff.1 hbind
      obtain ⟨a, hdefault⟩ := hearlier _ hleft (by omega)
      exact absurd hnull (defaultFor_min_add hslot hdefault).2

end Layout

/-! ### Heaps -/

/-- The heaps differ in one slot of one object, and there the new one holds `a`. -/
structure Heap.Rewrites (h h' : Heap) (o : ObjectRef) (pos : Nat) (a : Attr) : Prop where
  written : (h'.object o).slots[pos]? = some a
  slots : ∀ r q, r ≠ o ∨ q ≠ pos → (h'.object r).slots[q]? = (h.object r).slots[q]?
  shape : ∀ r, (h'.object r).shape = (h.object r).shape
  objects : h'.objects.size = h.objects.size
  fragments : h'.fragments = h.fragments

namespace Heap

variable {h h' : Heap} {o r : ObjectRef} {pos q : Nat} {a b : Attr} {slot : AttrSlot}

theorem rewrites_setSlot (hpos : pos < (h.object o).slots.size) :
    h.Rewrites (h.setSlot o pos a) o pos a where
  written := by
    rw [object_setSlot_self]
    exact Array.getElem?_setIfInBounds_self_of_lt hpos
  slots r q hne := by
    by_cases hr : r = o
    · subst hr
      rw [object_setSlot_self]
      exact Array.getElem?_setIfInBounds_ne (hne.resolve_left (not_not.2 rfl)).symm
    · rw [object_setSlot_of_ne hr]
  shape _ := shape_setSlot
  objects := Array.size_modify
  fragments := rfl

namespace Rewrites

variable (hrw : h.Rewrites h' o pos a)

include hrw

theorem object_of_ne (hr : r ≠ o) : h'.object r = h.object r := by
  have hslots : (h'.object r).slots = (h.object r).slots :=
    Array.ext_getElem? fun q => hrw.slots r q (Or.inl hr)
  have hshape := hrw.shape r
  simp only [Object.shape, ObjectShape.mk.injEq] at hshape
  obtain ⟨htable, hpos, hpolicy, -⟩ := hshape
  cases hnew : h'.object r
  cases hold : h.object r
  simp_all only

theorem hasAttr_eq : (h'.object r).hasAttr slot = (h.object r).hasAttr slot := by
  have hshape := hrw.shape r
  simp only [Object.shape, ObjectShape.mk.injEq] at hshape
  obtain ⟨htable, -, -, hsize⟩ := hshape
  rw [Object.hasAttr, Object.hasAttr, htable, hsize]

theorem load_eq (hne : r ≠ o ∨ q ≠ pos) : h'.load r q = h.load r q := by
  rw [load, load, hrw.slots r q hne]

theorem loadChecked_eq (hne : slot.pos.toNat ≠ pos) : h'.loadChecked r slot = h.loadChecked r slot := by
  rw [loadChecked, loadChecked, hrw.hasAttr_eq, hrw.load_eq (Or.inr hne)]

/-- Contexts are told apart by their shape. -/
theorem acceptsContext_eq : h'.acceptsContext b = h.acceptsContext b := by
  cases b with
  | value context r =>
    have hpos : (h'.object r).pos = (h.object r).pos := congrArg ObjectShape.pos (hrw.shape r)
    simp only [acceptsContext, Object.isInstance, hpos]
  | _ => rfl

end Rewrites

end Heap

namespace Layout

variable {l : Layout} {h h' : Heap} {f target : ObjectRef} {pos i : Nat} {v callable : Attr}
  {context : Option Attr} {t : ParamTable} {ks : List Keyword} {args : Array Attr} {proven : Bool}

theorem functionOf_rewrites (hrw : h.Rewrites h' f pos v) (hfn : l.fnSlot.pos.toNat ≠ pos) :
    l.functionOf h' target = l.functionOf h target := by
  simp only [functionOf, hrw.load_eq (Or.inr hfn)]

theorem dispatch_rewrites (hrw : h.Rewrites h' f pos v) (hfn : l.fnSlot.pos.toNat ≠ pos) {b : Attr} :
    l.dispatch h' target proven b = l.dispatch h target proven b := by
  simp only [dispatch, hrw.acceptsContext_eq, hrw.hasAttr_eq, functionOf_rewrites hrw hfn]

/-- An object that is no wrapper stays none, and a wrapper is another object. -/
theorem unwrap_rewrites (hrw : h.Rewrites h' f pos v) (hplain : (h.object f).hasAttr l.valueSlot = false) :
    l.unwrap h' callable = l.unwrap h callable := by
  unfold unwrap
  cases callable.object? with
  | none => rfl
  | some r =>
    by_cases hr : r = f
    · subst hr
      simp only [Object.loadOrNull, hrw.hasAttr_eq, hplain, Bool.false_eq_true, if_false, Attr.isNull,
        BEq.rfl, if_true]
    · simp only [hrw.object_of_ne hr]

theorem Targets.rewrites (htargets : l.Targets h callable target context t) (hrw : h.Rewrites h' f pos v)
    (hplain : (h.object f).hasAttr l.valueSlot = false) (hargs : l.argsSlot.pos.toNat ≠ pos) :
    l.Targets h' callable target context t where
  unwrap := by
    rw [unwrap_rewrites hrw hplain]
    exact htargets.unwrap
  params := by
    rw [hrw.loadChecked_eq hargs]
    exact htargets.params

theorem bindArgs_rewrites (hrw : h.Rewrites h' f (l.functionSize.toNat + i) v)
    (hkept : target = f → ¬ t.IsLeft args.size ks (t.min.toNat + i)) :
    l.bindArgs (h'.object target) t args ks = l.bindArgs (h.object target) t args ks := by
  by_cases htarget : target = f
  · refine bindArgs_congr fun p hleft => defaultFor_congr fun hmin => hrw.slots _ _ (Or.inr fun hpos => ?_)
    obtain rfl : p = t.min.toNat + i := by omega
    exact hkept htarget hleft
  · rw [hrw.object_of_ne htarget]

/-- A call that does not leave the position to its default does not see the default replaced, whatever it
is a call of. -/
theorem prepare_rewrites (hrw : h.Rewrites h' f (l.functionSize.toNat + i) v)
    (hplain : (h.object f).hasAttr l.valueSlot = false)
    (hargs : l.argsSlot.pos.toNat ≠ l.functionSize.toNat + i)
    (hfn : l.fnSlot.pos.toNat ≠ l.functionSize.toNat + i)
    (hkept : ∀ context t, l.Targets h callable f context t →
      ¬ t.IsLeft (supply args context).size ks (t.min.toNat + i)) :
    l.prepare h' callable proven ks args = l.prepare h callable proven ks args := by
  rcases hunwrap : l.unwrap h callable with ⟨a, context⟩
  simp only [prepare, unwrap_rewrites hrw hplain, hunwrap]
  cases hobject : a.object? with
  | none => rfl
  | some target =>
    simp only [hrw.loadChecked_eq hargs]
    cases hload : h.loadChecked target l.argsSlot with
    | error e => rfl
    | ok params =>
      cases params with
      | args lower t =>
        have hbind : l.bindArgs (h'.object target) t (supply args context) ks =
            l.bindArgs (h.object target) t (supply args context) ks := by
          refine bindArgs_rewrites hrw ?_
          rintro rfl
          exact hkept context t ⟨⟨a, hunwrap, hobject⟩, lower, hload⟩
        change l.bindArgs _ _ _ _ >>= _ = l.bindArgs _ _ _ _ >>= _
        simp only [hbind, dispatch_rewrites hrw hfn]
      | _ => rfl

end Layout

/-! ### Machines -/

/-- A write that is out of range is not done in part. -/
theorem store_eq_fault_iff {s : State} {o : ObjectRef} {pos : Nat} {a : Attr} :
    store o pos a s = .error .fault s ↔ (s.heap.object o).slots.size ≤ pos := by
  by_cases hpos : pos < (s.heap.object o).slots.size
  · have hstored : store o pos a s = .ok () _ := store_eq_ok_iff.2 ⟨hpos, rfl⟩
    simp [hstored, hpos]
  · have hfault : store o pos a s = .error .fault s := by
      change (ofExcept (s.heap.store o pos a) >>= fun h => modifyHeap fun _ => h) s = _
      rw [Heap.store, if_neg hpos]
      rfl
    simpa [hfault] using hpos

namespace Machine

/-- Both calls run the same native on the same arguments, or are refused for the same cause, or fault because
something is out of reach. -/
def AnswersAlike (m : Machine) (s s' : State) (callable : Attr) (proven : Bool) (ks : List Keyword)
    (args : Array Attr) : Prop :=
  (∃ c, m.Runs s callable proven ks args c ∧ m.Runs s' callable proven ks args c) ∨
  (∃ cause, m.Refuses s callable proven ks args cause ∧ m.Refuses s' callable proven ks args cause) ∨
  (m.Faults s callable proven ks args ∧ m.Faults s' callable proven ks args ∧
    m.layout.OutOfReach s.heap callable proven ks args ∧ m.layout.OutOfReach s'.heap callable proven ks args)

/-- What it comes to that the default with this index of `f` is replaced by `v`. -/
structure Replaces (m : Machine) (s s' : State) (f : ObjectRef) (index : Nat) (v : Attr) : Prop where
  /-- Nothing but the slot of the default is changed. -/
  heap : s.heap.Rewrites s'.heap f (m.layout.functionSize.toNat + index) v
  allocator : s'.allocator = s.allocator
  calls : s'.calls = s.calls
  own : m.getDefault f index s' = .ok v s'
  /-- Reading another default comes out as before, be it an attribute or a fault. -/
  others : ∀ j, j ≠ index → ∃ outcome : Except Halt Attr,
    m.getDefault f j s = ofExcept outcome s ∧ m.getDefault f j s' = ofExcept outcome s'
  /-- Calls that leave the position to its default get the new one, and cannot do without. -/
  left : ∀ callable proven ks args context t, m.layout.Targets s.heap callable f context t →
    t.IsLeft (supply args context).size ks (t.min.toNat + index) →
    m.layout.Targets s'.heap callable f context t ∧
    (∀ bound, m.layout.bindArgs (s'.heap.object f) t (supply args context) ks = .ok bound →
      bound[t.min.toNat + index]? = some v) ∧
    (∀ name bound, m.Runs s' callable proven ks args ⟨.named name, bound⟩ →
      bound[t.min.toNat + index]? = some v) ∧
    (v = .null → ∃ cause, m.Refuses s' callable proven ks args cause)
  /-- Every other call comes out as before, of whatever it is a call. -/
  kept : ∀ callable proven ks args,
    (∀ context t, m.layout.Targets s.heap callable f context t →
      ¬ t.IsLeft (supply args context).size ks (t.min.toNat + index)) →
    m.AnswersAlike s s' callable proven ks args

variable {m : Machine} {s s' : State} {f : ObjectRef} {i j : Nat} {v callable : Attr} {proven : Bool}
  {ks : List Keyword} {args : Array Attr}

theorem setDefault_of_lt (hroom : m.layout.functionSize.toNat + i < 2 ^ 64) :
    m.setDefault f i v = store f (m.layout.functionSize.toNat + i) v := by
  simp only [setDefault, Layout.defaultPos?_of_lt hroom]

theorem getDefault_eq (m : Machine) (s : State) (f : ObjectRef) (j : Nat) :
    m.getDefault f j s = ofExcept (match m.layout.defaultPos? j with
      | some pos => s.heap.load f pos
      | none => .error .fault) s := by
  unfold getDefault
  cases m.layout.defaultPos? j with
  | none => rfl
  | some pos => rfl

theorem getDefault_rewrites (hrw : s.heap.Rewrites s'.heap f (m.layout.functionSize.toNat + i) v)
    (hj : j ≠ i) : ∃ outcome : Except Halt Attr,
      m.getDefault f j s = ofExcept outcome s ∧ m.getDefault f j s' = ofExcept outcome s' := by
  refine ⟨_, getDefault_eq m s f j, (getDefault_eq m s' f j).trans ?_⟩
  rcases Nat.lt_or_ge (m.layout.functionSize.toNat + j) (2 ^ 64) with hroom | hover
  · have hne : m.layout.functionSize.toNat + j ≠ m.layout.functionSize.toNat + i := by omega
    simp only [Layout.defaultPos?_of_lt hroom, hrw.load_eq (Or.inr hne)]
  · simp only [Layout.defaultPos?_of_le hover]

/-- A rewritten slot that no special attribute of a function shares is a replaced default. -/
theorem replaces_of_rewrites (hargs : m.layout.argsSlot.pos.toNat < m.layout.functionSize.toNat)
    (hfn : m.layout.fnSlot.pos.toNat < m.layout.functionSize.toNat)
    (hplain : (s.heap.object f).hasAttr m.layout.valueSlot = false)
    (hroom : m.layout.functionSize.toNat + i < 2 ^ 64)
    (hrw : s.heap.Rewrites s'.heap f (m.layout.functionSize.toNat + i) v)
    (hallocator : s'.allocator = s.allocator) (hcalls : s'.calls = s.calls) :
    m.Replaces s s' f i v where
  heap := hrw
  allocator := hallocator
  calls := hcalls
  own := by
    rw [getDefault_eq]
    simp only [Layout.defaultPos?_of_lt hroom, Heap.load_eq_ok_iff.2 hrw.written]
    rfl
  others j hj := getDefault_rewrites hrw hj
  left callable proven ks args context t htargets hleft := by
    have htargets' := htargets.rewrites hrw hplain (by omega)
    obtain ⟨hbound, hrefused⟩ := Layout.bindArgs_of_isLeft hroom hrw.written hleft
    refine ⟨htargets', hbound, fun name bound hruns => ?_, fun hnull => ?_⟩
    · exact hbound bound ((Layout.prepare_eq_ok_iff htargets').1 (prepare_of_runs hruns)).1
    · obtain ⟨cause, hbind⟩ := hrefused hnull
      refine ⟨cause, refuses_of_prepare ?_⟩
      rw [Layout.prepare_of_targets htargets', hbind]
      rfl
  kept callable proven ks args hkept :=
    alike_of_prepare_eq (Layout.prepare_rewrites hrw hplain (by omega) (by omega) hkept)

/-- Where the special attributes of a function come before its defaults, to replace a default faults and does
nothing just if the function has no such slot, and else it changes what reads that default and nothing
else. -/
theorem setDefault_replaces (hargs : m.layout.argsSlot.pos.toNat < m.layout.functionSize.toNat)
    (hfn : m.layout.fnSlot.pos.toNat < m.layout.functionSize.toNat)
    (hplain : (s.heap.object f).table.provides m.layout.valueSlot.pos.toNat m.layout.valueSlot.code = false)
    (hroom : m.layout.functionSize.toNat + i < 2 ^ 64) (v : Attr) :
    (m.setDefault f i v s = .error .fault s ↔
      (s.heap.object f).slots.size ≤ m.layout.functionSize.toNat + i) ∧
    (m.layout.functionSize.toNat + i < (s.heap.object f).slots.size →
      ∃ s', m.setDefault f i v s = .ok () s' ∧ m.Replaces s s' f i v) := by
  have hvalue : (s.heap.object f).hasAttr m.layout.valueSlot = false := by
    rw [Object.hasAttr, hplain, Bool.false_and]
  rw [setDefault_of_lt hroom]
  exact ⟨store_eq_fault_iff, fun hlt => ⟨_, store_eq_ok_iff.2 ⟨hlt, rfl⟩,
    replaces_of_rewrites hargs hfn hvalue hroom (Heap.rewrites_setSlot hlt) rfl rfl⟩⟩

end Machine

namespace Sample

/-- The sample function with another default for its second parameter, or none. -/
def redefined (a : Attr) : State :=
  { state with heap := ⟨#[{ function with slots := function.slots.set! 4 a }, wrapper], #[]⟩ }

theorem isLeft : params.IsLeft 1 keywords 2 := ⟨by decide, by decide, by decide⟩

/-- Nothing is left where everything is given by position. -/
theorem not_isLeft {p : Nat} : ¬ params.IsLeft 4 [] p := by
  rintro ⟨hle, hlt, -⟩
  exact absurd hlt (Nat.not_lt.2 hle)

theorem targets_function {target : ObjectRef} {context : Option Attr} {t : ParamTable}
    (h : layout.Targets state.heap (.ofObject ⟨0⟩) target context t) : context = none ∧ t = params := by
  obtain ⟨⟨a, hunwrap, hobject⟩, lower, hparams⟩ := h
  cases hunwrap
  cases hobject
  cases hparams
  exact ⟨rfl, rfl⟩

end Sample

/-- The wrapper is called with the second parameter left out, and the function with everything given. -/
theorem Machine.setDefault_replaces_sample :
    Sample.machine.setDefault ⟨0⟩ 1 (.int 9) Sample.state = .ok () (Sample.redefined (.int 9)) ∧
    Sample.machine.getDefault ⟨0⟩ 1 (Sample.redefined (.int 9)) = .ok (.int 9) (Sample.redefined (.int 9)) ∧
    (∃ bound : Array Attr, bound[2]? = some (.int 9) ∧ Sample.machine.Runs (Sample.redefined (.int 9))
      (.ofObject ⟨1⟩) false Sample.keywords #[.null] ⟨.named "record", bound⟩) ∧
    (∃ c, Sample.machine.Runs Sample.state (.ofObject ⟨0⟩) false [] #[.null, .int 1, .int 2, .int 3] c ∧
      Sample.machine.Runs (Sample.redefined (.int 9)) (.ofObject ⟨0⟩) false []
        #[.null, .int 1, .int 2, .int 3] c) ∧
    (∃ cause, Sample.machine.Refuses (Sample.redefined .null) (.ofObject ⟨1⟩) false Sample.keywords #[.null]
      cause) ∧
    Sample.machine.setDefault ⟨0⟩ 3 (.int 9) Sample.state = .error .fault Sample.state := by
  have hreplaces : ∀ a, Sample.machine.Replaces Sample.state (Sample.redefined a) ⟨0⟩ 1 a := by
    intro a
    obtain ⟨s', hset, hreplaces⟩ := (setDefault_replaces (m := Sample.machine) (s := Sample.state) (f := ⟨0⟩)
      (i := 1) (by decide) (by decide) (by decide) (by decide) a).2 (by decide)
    cases hset
    exact hreplaces
  have hruns : Sample.machine.Runs (Sample.redefined (.int 9)) (.ofObject ⟨1⟩) false Sample.keywords #[.null]
      ⟨.named "record", #[.int 1, .int 5, .int 9, .int 30]⟩ := runs_of_prepare rfl
  have hleft := fun a =>
    (hreplaces a).left (.ofObject ⟨1⟩) false Sample.keywords #[.null] _ _ Sample.targets Sample.isLeft
  refine ⟨rfl, (hreplaces _).own, ⟨_, (hleft _).2.2.1 _ _ hruns, hruns⟩, ?_, (hleft .null).2.2.2 rfl, ?_⟩
  · have hkept := (hreplaces (.int 9)).kept (.ofObject ⟨0⟩) false [] #[.null, .int 1, .int 2, .int 3] ?_
    · rcases hkept with hruns | ⟨cause, hrefused, -⟩ | ⟨hfaults, -⟩
      · exact hruns
      · cases hrefused fun _ _ => pure .null
      · cases faults_iff.1 hfaults
    · intro context t htargets
      obtain ⟨rfl, rfl⟩ := Sample.targets_function htargets
      exact Sample.not_isLeft
  · exact (setDefault_replaces (by decide) (by decide) (by decide) (by decide) _).1.2 (by decide)

/-- A call of the dangling method with everything given leaves nothing to the default that is replaced, and
runs nothing and is not refused either: it faults, before and after. -/
theorem Machine.setDefault_dangling :
    Sample.layout.argsSlot.pos.toNat < Sample.layout.functionSize.toNat ∧
    Sample.layout.fnSlot.pos.toNat < Sample.layout.functionSize.toNat ∧
    (Sample.danglings.heap.object ⟨2⟩).table.provides Sample.layout.valueSlot.pos.toNat
      Sample.layout.valueSlot.code = false ∧
    Sample.layout.functionSize.toNat + 0 < 2 ^ 64 ∧
    (∀ context t, Sample.layout.Targets Sample.danglings.heap (.ofObject ⟨2⟩) ⟨2⟩ context t →
      ¬ t.IsLeft (supply #[.null, .int 1, .int 2, .int 3] context).size [] (t.min.toNat + 0)) ∧
    ∃ s', Sample.machine.setDefault ⟨2⟩ 0 (.int 9) Sample.danglings = .ok () s' ∧
      Sample.machine.Faults Sample.danglings (.ofObject ⟨2⟩) false [] #[.null, .int 1, .int 2, .int 3] ∧
      Sample.machine.Faults s' (.ofObject ⟨2⟩) false [] #[.null, .int 1, .int 2, .int 3] ∧
      ¬ ((∃ c, Sample.machine.Runs Sample.danglings (.ofObject ⟨2⟩) false []
            #[.null, .int 1, .int 2, .int 3] c ∧
          Sample.machine.Runs s' (.ofObject ⟨2⟩) false [] #[.null, .int 1, .int 2, .int 3] c) ∨
        ∃ cause, Sample.machine.Refuses Sample.danglings (.ofObject ⟨2⟩) false []
            #[.null, .int 1, .int 2, .int 3] cause ∧
          Sample.machine.Refuses s' (.ofObject ⟨2⟩) false [] #[.null, .int 1, .int 2, .int 3] cause) := by
  have hfaults : Sample.machine.Faults Sample.danglings (.ofObject ⟨2⟩) false []
      #[.null, .int 1, .int 2, .int 3] := faults_of_prepare rfl
  refine ⟨by decide, by decide, by decide, by decide, fun context t htargets => ?_, _, rfl, hfaults,
    faults_of_prepare rfl, ?_⟩
  · obtain ⟨-, rfl, rfl⟩ := Sample.targets_dangling htargets
    exact Sample.not_isLeft
  · rintro (⟨c, hruns, -⟩ | ⟨cause, hrefused, -⟩)
    · exact hfaults.not_runs_or_refuses (Or.inl ⟨c, hruns⟩)
    · exact hfaults.not_runs_or_refuses (Or.inr ⟨cause, hrefused⟩)

end ObjectRuntime
