import ObjectRuntime.Proofs.Outcomes

/-! Checked access to attributes. An attribute is a position and a code; an object has it iff its table holds
the code there and its slots reach as far, whatever the lengths of the two. Several attributes may claim one
position, but a table holds one code there, so a checked write is seen through the one attribute of the one
object that it goes to. The main statement says so of one write, and of any run of writes to one special
attribute as seen from another. -/

namespace ObjectRuntime

/-- The object has the attribute: its table holds the code at the position, and its slots reach as far. -/
structure Object.Offers (o : Object) (s : AttrSlot) : Prop where
  code_ne_gap : s.code ≠ gapCode
  listed : o.table.codes[s.pos.toNat]? = some s.code
  pos_lt : s.pos.toNat < o.slots.size

theorem Object.hasAttr_iff_offers {o : Object} {s : AttrSlot} : o.hasAttr s ↔ o.Offers s := by
  rw [hasAttr_iff]
  refine ⟨?_, ?_⟩
  · rintro ⟨hcode, hlisted, hpos⟩
    exact ⟨hcode, hlisted, hpos⟩
  · intro h
    exact ⟨h.code_ne_gap, h.listed, h.pos_lt⟩

theorem AttrSlot.ne_iff {s t : AttrSlot} : t ≠ s ↔ t.pos ≠ s.pos ∨ t.code ≠ s.code := by
  cases s
  cases t
  simp only [ne_eq, AttrSlot.mk.injEq, not_and_or]

namespace Heap

/-- What an attribute of an object reads as, with a raise where it is missing and with nothing there. -/
def reading (h : Heap) (o : ObjectRef) (s : AttrSlot) : Except Halt Attr × Attr :=
  (h.loadChecked o s, (h.object o).loadOrNull s)

variable {h : Heap} {o r : ObjectRef} {s t : AttrSlot} {a : Attr}

/-- The lenient read stays within the object: where there is something to be read, an unchecked read finds
it. -/
theorem load_of_hasAttr (hs : (h.object o).hasAttr s) :
    h.load o s.pos.toNat = .ok ((h.object o).loadOrNull s) := by
  have hpos := (Object.hasAttr_iff.1 hs).2.2
  rw [load_eq_ok_iff, Object.loadOrNull, if_pos hs, Array.getElem?_eq_getElem hpos,
    Array.getD_eq_getD_getElem?, Array.getElem?_eq_getElem hpos]
  rfl

theorem reading_eq (h : Heap) (o : ObjectRef) (s : AttrSlot) : h.reading o s =
    if (h.object o).hasAttr s then
      (.ok ((h.object o).loadOrNull s), (h.object o).loadOrNull s)
    else (.error (.type .attributeMissing), .null) := by
  unfold reading loadChecked
  by_cases hs : (h.object o).hasAttr s
  · rw [if_pos hs, if_pos hs, load_of_hasAttr hs]
  · rw [if_neg hs, if_neg hs, Object.loadOrNull, if_neg hs]

theorem reading_setSlot_self (hs : (h.object o).hasAttr s) :
    (h.setSlot o s.pos.toNat a).reading o s = (.ok a, a) := by
  rw [reading_eq, hasAttr_setSlot, if_pos hs, loadOrNull_setSlot_self hs]

/-- A checked write is seen through the attribute of the object that it goes to, and through no other. -/
theorem reading_setSlot_of_ne (hs : (h.object o).hasAttr s) (hne : r ≠ o ∨ t ≠ s) :
    (h.setSlot o s.pos.toNat a).reading r t = h.reading r t := by
  have hnull : ((h.setSlot o s.pos.toNat a).object r).loadOrNull t = (h.object r).loadOrNull t := by
    by_cases hr : r = o
    · subst hr
      exact loadOrNull_setSlot_of_ne hs (hne.resolve_left fun hr => hr rfl)
    · rw [object_setSlot_of_ne hr]
  rw [reading_eq, reading_eq, hasAttr_setSlot, hnull]

end Heap

/-! ### Runs of writes -/

/-- Writes to an attribute of one object after another. A write that is refused is passed over. -/
def storeEach (s : AttrSlot) : List (ObjectRef × Attr) → Action Unit
  | [] => pure ()
  | w :: ws => attempted (storeChecked w.1 s w.2) >>= fun _ => storeEach s ws

variable {σ : State} {o : ObjectRef} {s t : AttrSlot} {v : Attr}

/-- One write of a run ends well and is not seen through another attribute. -/
theorem attempted_storeChecked (hne : t ≠ s) : ∃ x σ', attempted (storeChecked o s v) σ = .ok x σ' ∧
    ∀ r, σ'.heap.reading r t = σ.heap.reading r t := by
  unfold attempted
  rcases storeChecked_cases o s v σ with hstore | hstore
  · obtain ⟨hattr, -⟩ := storeChecked_eq_ok_iff.1 hstore
    rw [hstore]
    exact ⟨_, _, rfl, fun r => Heap.reading_setSlot_of_ne hattr (Or.inr hne)⟩
  · rw [hstore]
    exact ⟨_, _, rfl, fun _ => rfl⟩

theorem reading_of_storeEach (hne : t ≠ s) (ws : List (ObjectRef × Attr)) (σ : State) :
    ∃ σ', storeEach s ws σ = .ok () σ' ∧ ∀ r, σ'.heap.reading r t = σ.heap.reading r t := by
  induction ws generalizing σ with
  | nil => exact ⟨σ, rfl, fun _ => rfl⟩
  | cons w ws ih =>
    obtain ⟨x, σ₁, hfirst, hkept⟩ := attempted_storeChecked (o := w.1) (v := w.2) (σ := σ) hne
    obtain ⟨σ', hrest, hkept'⟩ := ih σ₁
    refine ⟨σ', ?_, fun r => (hkept' r).trans (hkept r)⟩
    rw [storeEach, bind_of_ok hfirst]
    exact hrest

/-! ### Access -/

theorem access_of_offers (v : Attr) (h : (σ.heap.object o).Offers s) :
    load o s.pos.toNat σ = .ok ((σ.heap.object o).loadOrNull s) σ ∧
    loadChecked o s σ = .ok ((σ.heap.object o).loadOrNull s) σ ∧
    storeChecked o s v σ = .ok () (σ.withSlot o s.pos.toNat v) := by
  have hattr := Object.hasAttr_iff_offers.2 h
  refine ⟨?_, ?_, storeChecked_eq_ok_iff.2 ⟨hattr, rfl⟩⟩
  · rw [load, getHeap_bind, Heap.load_of_hasAttr hattr]
    rfl
  · rw [loadChecked, getHeap_bind, Heap.loadChecked, if_pos hattr, Heap.load_of_hasAttr hattr]
    rfl

theorem access_of_not_offers (v : Attr) (h : ¬ (σ.heap.object o).Offers s) :
    (σ.heap.object o).loadOrNull s = .null ∧
    loadChecked o s σ = .error (.type .attributeMissing) σ ∧
    storeChecked o s v σ = .error (.type .attributeMissing) σ := by
  have hattr : ¬ (σ.heap.object o).hasAttr s := fun hattr => h (Object.hasAttr_iff_offers.1 hattr)
  refine ⟨if_neg hattr, ?_, ?_⟩
  · rw [loadChecked, getHeap_bind, Heap.loadChecked, if_neg hattr]
    rfl
  · rcases storeChecked_cases o s v σ with hstore | hstore
    · exact absurd (storeChecked_eq_ok_iff.1 hstore).1 hattr
    · exact hstore

/-- Checked access never faults. It succeeds, for reading and for writing alike, iff the object has the
attribute, and is refused with nothing changed otherwise. What is written is read back, and no other
attribute of any object reads differently; so writes to a special attribute, however many and to whichever
objects, leave every other special attribute alone once their codes differ. -/
theorem attributes_apart :
    (∀ (σ : State) (o : ObjectRef) (s : AttrSlot) (v : Attr),
      ((σ.heap.object o).Offers s →
        load o s.pos.toNat σ = .ok ((σ.heap.object o).loadOrNull s) σ ∧
        loadChecked o s σ = .ok ((σ.heap.object o).loadOrNull s) σ ∧
        storeChecked o s v σ = .ok () (σ.withSlot o s.pos.toNat v) ∧
        (σ.withSlot o s.pos.toNat v).heap.reading o s = (.ok v, v) ∧
        ∀ r t, r ≠ o ∨ t.pos ≠ s.pos ∨ t.code ≠ s.code →
          (σ.withSlot o s.pos.toNat v).heap.reading r t = σ.heap.reading r t) ∧
      (¬ (σ.heap.object o).Offers s →
        (σ.heap.object o).loadOrNull s = .null ∧
        loadChecked o s σ = .error (.type .attributeMissing) σ ∧
        storeChecked o s v σ = .error (.type .attributeMissing) σ)) ∧
    ∀ l : Layout, (∀ a b, (l.slot a).code = (l.slot b).code → a = b) →
      ∀ (a b : SpecialAttr), a ≠ b → ∀ (ws : List (ObjectRef × Attr)) (σ : State),
        ∃ σ', storeEach (l.slot a) ws σ = .ok () σ' ∧
          ∀ r, σ'.heap.reading r (l.slot b) = σ.heap.reading r (l.slot b) := by
  refine ⟨fun σ o s v => ⟨fun h => ?_, access_of_not_offers v⟩, fun l hcodes a b hne ws σ => ?_⟩
  · have hattr := Object.hasAttr_iff_offers.2 h
    obtain ⟨hload, hchecked, hstore⟩ := access_of_offers v h
    refine ⟨hload, hchecked, hstore, Heap.reading_setSlot_self hattr, fun r t ht => ?_⟩
    exact Heap.reading_setSlot_of_ne hattr (ht.imp_right AttrSlot.ne_iff.2)
  · have hslot : l.slot b ≠ l.slot a := fun heq => hne (hcodes a b (congrArg AttrSlot.code heq.symm))
    exact reading_of_storeEach hslot ws σ

/-- Two special attributes at one position. -/
def crowded : Layout := ⟨⟨0, 1⟩, ⟨1, 2⟩, ⟨2, 3⟩, ⟨1, 4⟩, ⟨1, 5⟩, ⟨3, 6⟩, 3⟩

/-- An object with each of the two, and one whose slots do not reach as far as its table. -/
def crowdedState : State where
  heap := ⟨#[⟨⟨#[1, 4]⟩, 0, .heap, #[.null, .int 4]⟩, ⟨⟨#[1, 5]⟩, 0, .heap, #[.null, .int 5, .int 6]⟩,
    ⟨⟨#[1, 4, 3]⟩, 0, .heap, #[.null]⟩], #[]⟩
  allocator := .ofBudget none
  calls := #[]

theorem attributes_apart_crowded :
    ((crowdedState.heap.object ⟨0⟩).Offers crowded.dataSlot ∧
      (crowdedState.withSlot ⟨0⟩ 1 (.int 9)).heap.reading ⟨0⟩ crowded.dataSlot = (.ok (.int 9), .int 9) ∧
      (crowdedState.withSlot ⟨0⟩ 1 (.int 9)).heap.reading ⟨1⟩ crowded.valueSlot = (.ok (.int 5), .int 5)) ∧
    (¬ (crowdedState.heap.object ⟨2⟩).Offers crowded.dataSlot ∧
      storeChecked ⟨2⟩ crowded.dataSlot .null crowdedState =
        .error (.type .attributeMissing) crowdedState) ∧
    ∃ σ, storeEach crowded.dataSlot [(⟨0⟩, .int 7), (⟨1⟩, .int 8), (⟨2⟩, .int 9)] crowdedState = .ok () σ ∧
      σ.heap.reading ⟨1⟩ crowded.valueSlot = (.ok (.int 5), .int 5) := by
  obtain ⟨haccess, hruns⟩ := attributes_apart
  have hoffers : (crowdedState.heap.object ⟨0⟩).Offers crowded.dataSlot := ⟨by decide, rfl, by decide⟩
  have hshort : ¬ (crowdedState.heap.object ⟨2⟩).Offers crowded.dataSlot :=
    fun h => absurd h.pos_lt (by decide)
  obtain ⟨-, -, -, hself, hothers⟩ := (haccess _ _ _ (.int 9)).1 hoffers
  have hcodes : ∀ a b, (crowded.slot a).code = (crowded.slot b).code → a = b := by
    intro a b
    cases a <;> cases b <;> decide
  obtain ⟨σ, hrun, hkept⟩ := hruns crowded hcodes .data .value (by decide)
    [(⟨0⟩, .int 7), (⟨1⟩, .int 8), (⟨2⟩, .int 9)] crowdedState
  exact ⟨⟨hoffers, hself, hothers ⟨1⟩ crowded.valueSlot (Or.inl (by decide))⟩,
    ⟨hshort, ((haccess _ _ _ _).2 hshort).2.2⟩, σ, hrun, hkept ⟨1⟩⟩

end ObjectRuntime
