import ObjectRuntime.Proofs.Accounting

/-! The budget of an allocator, over its whole life. Requests are answered one after the other; each is
granted or refused as it comes, and only a grant is counted. What has been counted is never given back, so
the budget that has once refused a request refuses every later one that asks for as much. -/

namespace ObjectRuntime

/-- A request for storage, and whether the host has storage for it. -/
structure Request extends Storage where
  reserved : Bool

/-- A request that has been answered, with the counts before and after. -/
structure Turn where
  request : Request
  before : Usage
  answer : Except AllocError (Array Attr)
  after : Usage

namespace Allocator

/-- The answer to a request, and the allocator that is left. -/
def answer (a : Allocator) (r : Request) : Except AllocError (Array Attr) × Allocator :=
  match a.request r.reserved r.kind r.slots with
  | .ok (storage, b) => (.ok storage, b)
  | .error e => (.error e, a)

def turn (a : Allocator) (r : Request) : Turn := ⟨r, a.usage, (a.answer r).1, (a.answer r).2.usage⟩

/-- The turns in which these requests are answered. -/
def turns (a : Allocator) : List Request → List Turn
  | [] => []
  | r :: requests => a.turn r :: (a.answer r).2.turns requests

end Allocator

namespace Turn

/-- The storage that has been handed out, if any. -/
def granted? (t : Turn) : Option Storage :=
  match t.answer with
  | .ok _ => some t.request.toStorage
  | .error _ => none

/-- The request asks for more than the budget has left, whatever the host has storage for. -/
def PassesBudget (budget : Option UInt64) (t : Turn) : Prop :=
  ∃ max ∈ budget, max.toNat < Checked.addSaturating t.before.slots t.request.slots

/-- The request is granted unless the budget or the host stands against it. A grant is of just so many slots,
all empty, and a refusal leaves the counts alone. -/
structure Answered (budget : Option UInt64) (t : Turn) : Prop where
  granted_iff : (∃ storage, t.answer = .ok storage) ↔ ¬ t.PassesBudget budget ∧ t.request.reserved
  granted {storage : Array Attr} (h : t.answer = .ok storage) :
    storage = Array.replicate t.request.slots .null
  refused {e : AllocError} (h : t.answer = .error e) :
    e = ⟨t.request.kind, t.request.slots⟩ ∧ t.after = t.before

end Turn

/-- The storage granted in these turns. -/
def grantedIn (turns : List Turn) : List Storage := turns.filterMap Turn.granted?

theorem grantedIn_cons (t : Turn) (turns : List Turn) :
    grantedIn (t :: turns) = t.granted?.toList ++ grantedIn turns := by
  unfold grantedIn
  cases ht : t.granted? <;> simp [ht]

/-- The counts are those of the storage granted so far. -/
structure Usage.Covers (u : Usage) (granted : List Storage) : Prop where
  slots : u.slots = min (granted.map (·.slots)).sum Checked.maxWord
  grants : u.objects + u.fragments = granted.length
  immutable : u.immutableObjects ≤ u.objects

/-- The counts fit machine words. -/
structure Usage.InWords (u : Usage) : Prop where
  objects : u.objects ≤ Checked.maxWord
  immutable : u.immutableObjects ≤ Checked.maxWord
  fragments : u.fragments ≤ Checked.maxWord
  slots : u.slots ≤ Checked.maxWord

/-! ### Counts -/

namespace Usage

variable {u : Usage} {granted : List Storage} {q : Storage}

theorem slots_charge : (u.charge q).slots = Checked.addSaturating u.slots q.slots := by
  obtain ⟨kind, n⟩ := q
  cases kind with
  | object policy => cases policy <;> rfl
  | fragment => rfl

theorem grants_charge : (u.charge q).objects + (u.charge q).fragments = u.objects + u.fragments + 1 := by
  obtain ⟨kind, n⟩ := q
  cases kind with
  | object policy => cases policy <;> exact Nat.add_right_comm _ _ _
  | fragment => rfl

theorem immutable_charge (h : u.immutableObjects ≤ u.objects) :
    (u.charge q).immutableObjects ≤ (u.charge q).objects := by
  obtain ⟨kind, n⟩ := q
  cases kind with
  | object policy =>
    cases policy with
    | heap => exact Nat.le_succ_of_le h
    | immutable => exact Nat.succ_le_succ h
  | fragment => exact h

theorem covers_none : Usage.none.Covers [] := ⟨rfl, rfl, Nat.le_refl _⟩

/-- Slots beyond the largest word are left out for good, so the total may be cut off at the end. -/
theorem Covers.charge (h : u.Covers granted) : (u.charge q).Covers (granted ++ [q]) where
  slots := by
    rw [slots_charge, h.slots, List.map_append, List.sum_append, List.map_singleton, List.sum_singleton,
      Checked.addSaturating]
    omega
  grants := by rw [grants_charge, h.grants, List.length_append, List.length_singleton]
  immutable := immutable_charge h.immutable

/-- As many grants as a word can count are counted right. -/
theorem Covers.inWords (h : u.Covers granted) (hcount : granted.length ≤ Checked.maxWord) : u.InWords := by
  obtain ⟨hslots, hgrants, himmutable⟩ := h
  exact ⟨by omega, by omega, by omega, by omega⟩

end Usage

/-! ### One turn -/

namespace Allocator

variable {a : Allocator} {r : Request} {requests : List Request} {granted : List Storage} {t : Turn}
  {before after : List Turn}

theorem withinBudget_iff {total : Nat} : a.withinBudget total ↔ ∀ max ∈ a.budget, total ≤ max.toNat := by
  unfold withinBudget
  cases a.budget <;> simp

/-- A request that passes the budget is refused, and so is one that the host does not reserve. -/
theorem answer_cases (a : Allocator) (r : Request) :
    ((∀ max ∈ a.budget, Checked.addSaturating a.usage.slots r.slots ≤ max.toNat) ∧ r.reserved ∧
      a.answer r = (.ok (Array.replicate r.slots .null), { a with usage := a.usage.charge r.toStorage })) ∨
    (¬ ((∀ max ∈ a.budget, Checked.addSaturating a.usage.slots r.slots ≤ max.toNat) ∧ r.reserved) ∧
      a.answer r = (.error ⟨r.kind, r.slots⟩, a)) := by
  rw [← withinBudget_iff, answer, request]
  by_cases hroom : a.withinBudget (Checked.addSaturating a.usage.slots r.slots) ∧ r.reserved
  · rw [if_pos (by simpa using hroom)]
    exact .inl ⟨hroom.1, hroom.2, rfl⟩
  · rw [if_neg (by simpa using hroom)]
    exact .inr ⟨hroom, rfl⟩

@[simp] theorem budget_answer : (a.answer r).2.budget = a.budget := by
  rcases a.answer_cases r with ⟨-, -, heq⟩ | ⟨-, heq⟩ <;> rw [heq]

theorem answered_turn (a : Allocator) (r : Request) : (a.turn r).Answered a.budget := by
  have hpasses : (a.turn r).PassesBudget a.budget ↔
      ¬ ∀ max ∈ a.budget, Checked.addSaturating a.usage.slots r.slots ≤ max.toNat := by
    simp [Turn.PassesBudget, turn]
  have hanswer : (a.turn r).answer = (a.answer r).1 := rfl
  have hafter : (a.turn r).after = (a.answer r).2.usage := rfl
  rcases a.answer_cases r with ⟨hroom, hreserved, heq⟩ | ⟨hrefused, heq⟩
  · rw [heq] at hanswer hafter
    refine ⟨⟨fun _ => ⟨?_, hreserved⟩, fun _ => ⟨_, hanswer⟩⟩, fun h => ?_, fun h => ?_⟩
    · rw [hpasses, not_not]
      exact hroom
    · exact Except.ok.inj (h.symm.trans hanswer)
    · cases hanswer.symm.trans h
  · rw [heq] at hanswer hafter
    refine ⟨⟨?_, fun h => ?_⟩, fun h => ?_, fun h => ⟨?_, hafter⟩⟩
    · rintro ⟨storage, h⟩
      cases hanswer.symm.trans h
    · rw [hpasses, not_not] at h
      exact absurd h hrefused
    · cases hanswer.symm.trans h
    · exact Except.error.inj (h.symm.trans hanswer)

/-- The allocator has granted just this storage, and has kept to its budget. -/
structure Kept (a : Allocator) (granted : List Storage) : Prop where
  covers : a.usage.Covers granted
  within : ∀ max ∈ a.budget, a.usage.slots ≤ max.toNat

theorem kept_ofBudget (budget : Option UInt64) : (ofBudget budget).Kept [] :=
  ⟨Usage.covers_none, fun _ _ => Nat.zero_le _⟩

theorem Kept.answer (h : a.Kept granted) (r : Request) :
    (a.answer r).2.Kept (granted ++ (a.turn r).granted?.toList) := by
  rcases a.answer_cases r with ⟨hroom, -, heq⟩ | ⟨-, heq⟩
  · rw [Turn.granted?, turn, heq]
    refine ⟨h.covers.charge, fun max hmax => ?_⟩
    rw [Usage.slots_charge]
    exact hroom max hmax
  · rw [Turn.granted?, turn, heq, Option.toList_none, List.append_nil]
    exact h

theorem Kept.inWords (h : a.Kept granted) (hcount : granted.length ≤ Checked.maxWord) : a.usage.InWords :=
  h.covers.inWords hcount

/-- Below the largest word the slots are counted exactly, so the budget bounds their exact sum. -/
theorem Kept.sum_le (h : a.Kept granted) {max : UInt64} (hmax : max ∈ a.budget)
    (hlt : max.toNat < Checked.maxWord) : (granted.map (·.slots)).sum ≤ max.toNat := by
  have hslots := h.covers.slots
  have hwithin := h.within max hmax
  omega

/-- The total never goes down, not even where it is cut off. -/
theorem Kept.slots_le_answer (h : a.Kept granted) (r : Request) :
    a.usage.slots ≤ (a.answer r).2.usage.slots := by
  have hword : a.usage.slots ≤ Checked.maxWord := by
    rw [h.covers.slots]
    exact Nat.min_le_right _ _
  rcases a.answer_cases r with ⟨-, -, heq⟩ | ⟨-, heq⟩
  · rw [heq, Usage.slots_charge, Checked.addSaturating]
    omega
  · rw [heq]

/-! ### Many turns -/

theorem map_request_turns (a : Allocator) (requests : List Request) :
    (a.turns requests).map Turn.request = requests := by
  induction requests generalizing a with
  | nil => rfl
  | cons r requests ih => rw [turns, List.map_cons, ih, turn]

theorem answered_of_mem_turns (ht : t ∈ a.turns requests) : t.Answered a.budget := by
  induction requests generalizing a with
  | nil => cases ht
  | cons r requests ih =>
    rcases List.mem_cons.1 ht with rfl | ht
    · exact a.answered_turn r
    · rw [← budget_answer]
      exact ih ht

/-- After each turn the counts are those of what had been granted before and what was granted up to then. -/
theorem Kept.turns (h : a.Kept granted) (hturns : a.turns requests = before ++ t :: after) :
    ∃ b : Allocator, b.usage = t.after ∧ b.budget = a.budget ∧ b.Kept (granted ++ grantedIn (before ++ [t])) := by
  induction requests generalizing a granted before with
  | nil => simp [Allocator.turns] at hturns
  | cons r requests ih =>
    rw [Allocator.turns] at hturns
    have hkept := h.answer r
    cases before with
    | nil =>
      obtain ⟨rfl, -⟩ := List.cons_eq_cons.1 hturns
      refine ⟨(a.answer r).2, rfl, budget_answer, ?_⟩
      rw [List.nil_append, grantedIn_cons, grantedIn, List.filterMap_nil, List.append_nil]
      exact hkept
    | cons t' before =>
      obtain ⟨rfl, hrest⟩ := List.cons_eq_cons.1 hturns
      obtain ⟨b, husage, hbudget, hlater⟩ := ih hkept hrest
      refine ⟨b, husage, hbudget.trans budget_answer, ?_⟩
      rwa [List.cons_append, grantedIn_cons, ← List.append_assoc]

theorem Kept.slots_le (h : a.Kept granted) (ht : t ∈ a.turns requests) : a.usage.slots ≤ t.before.slots := by
  induction requests generalizing a granted with
  | nil => cases ht
  | cons r requests ih =>
    rcases List.mem_cons.1 ht with rfl | ht
    · exact Nat.le_refl _
    · exact (h.slots_le_answer r).trans (ih (h.answer r) ht)

/-- What passes the budget once passes it from then on. -/
theorem Kept.pairwise_passesBudget (h : a.Kept granted) : (a.turns requests).Pairwise fun t u =>
    t.PassesBudget a.budget → t.request.slots ≤ u.request.slots → u.PassesBudget a.budget := by
  induction requests generalizing a granted with
  | nil => exact List.Pairwise.nil
  | cons r requests ih =>
    have hlater := ih (h.answer r)
    rw [budget_answer] at hlater
    refine List.pairwise_cons.2 ⟨fun u hu => ?_, hlater⟩
    rintro ⟨max, hmax, hlt⟩ hslots
    have hbefore := (h.slots_le_answer r).trans ((h.answer r).slots_le hu)
    refine ⟨max, hmax, Nat.lt_of_lt_of_le hlt ?_⟩
    simp only [turn] at hslots ⊢
    unfold Checked.addSaturating
    omega

/-- A machine asks its allocator in just such turns, and is left with the allocator that comes out. -/
theorem allocate_eq_answer (m : Machine) (q : Storage) (s : State) : m.allocate q.kind q.slots s =
    match s.allocator.answer ⟨q, m.reserves q.slots⟩ with
    | (.ok storage, a) => .ok storage { s with allocator := a }
    | (.error _, a) => .error (.raised .memory) { s with allocator := a } := by
  rw [Machine.allocate, ActionOn.get_bind]
  simp only [answer]
  cases s.allocator.request (m.reserves q.slots) q.kind q.slots <;> rfl

/-- The budget of an allocator is one for its whole life. Each of fewer than `2 ^ 64` requests is granted unless
it passes the budget or the host refuses it; a grant is of just as many empty slots, and a refusal leaves all
four counts as they were. After each turn the counts are those of what has been granted until then, the slots
up to the largest word and all of them in words; the exact number of slots keeps to any budget below the
largest word. And where the budget refuses a request it refuses every later one for as many slots. The
requests of a machine are answered in such turns. -/
theorem lifetime_budget (budget : Option UInt64) (requests : List Request)
    (hcount : requests.length < 2 ^ 64) :
    ((ofBudget budget).turns requests).map Turn.request = requests ∧
    (∀ t ∈ (ofBudget budget).turns requests, t.Answered budget) ∧
    (∀ before t after, (ofBudget budget).turns requests = before ++ t :: after →
      t.after.Covers (grantedIn (before ++ [t])) ∧ t.after.InWords ∧
      ∀ max ∈ budget, max.toNat < Checked.maxWord →
        ((grantedIn (before ++ [t])).map (·.slots)).sum ≤ max.toNat) ∧
    (((ofBudget budget).turns requests).Pairwise fun t u =>
      t.PassesBudget budget → t.request.slots ≤ u.request.slots →
        u.PassesBudget budget ∧ u.answer = .error ⟨u.request.kind, u.request.slots⟩) ∧
    ∀ (m : Machine) (q : Storage) (s : State), m.allocate q.kind q.slots s =
      match s.allocator.answer ⟨q, m.reserves q.slots⟩ with
      | (.ok storage, a) => .ok storage { s with allocator := a }
      | (.error _, a) => .error (.raised .memory) { s with allocator := a } := by
  have hfresh := kept_ofBudget budget
  refine ⟨map_request_turns _ _, fun t ht => answered_of_mem_turns ht, fun before t after hturns => ?_, ?_,
    allocate_eq_answer⟩
  · obtain ⟨b, husage, hbudget, hkept⟩ := hfresh.turns hturns
    rw [List.nil_append] at hkept
    have hgrants : (grantedIn (before ++ [t])).length ≤ Checked.maxWord := by
      have hlength := congrArg List.length (map_request_turns (ofBudget budget) requests)
      have hgranted : (grantedIn (before ++ [t])).length ≤ (before ++ [t]).length := List.length_filterMap_le _ _
      rw [hturns] at hlength
      simp only [List.length_map, List.length_append, List.length_cons, List.length_nil] at hlength hgranted
      have hword : Checked.maxWord + 1 = 2 ^ 64 := rfl
      omega
    rw [← husage]
    refine ⟨hkept.covers, hkept.inWords hgrants, fun max hmax hlt => hkept.sum_le ?_ hlt⟩
    rw [hbudget]
    exact hmax
  · refine hfresh.pairwise_passesBudget.imp_of_mem fun {t u} _ hu hlater hpasses hslots => ?_
    have hagain := hlater hpasses hslots
    have hanswered : u.Answered budget := answered_of_mem_turns hu
    refine ⟨hagain, ?_⟩
    cases hanswer : u.answer with
    | ok storage => exact absurd hagain (hanswered.granted_iff.1 ⟨storage, hanswer⟩).1
    | error e => rw [(hanswered.refused hanswer).1]

end Allocator

namespace Sample

/-- The second request passes a budget of five slots and the fourth one is not reserved; the last one asks for
as many slots as a word can say. -/
def requests : List Request :=
  [⟨⟨.object .immutable, 3⟩, true⟩, ⟨⟨.fragment, 3⟩, true⟩, ⟨⟨.fragment, 2⟩, true⟩,
    ⟨⟨.object .heap, 0⟩, false⟩, ⟨⟨.fragment, 2 ^ 64 - 1⟩, true⟩]

end Sample

/-- Two requests are granted, which is all that the budget allows. The second and the last one are refused by
the budget, the fourth one by the host. -/
theorem Allocator.lifetime_budget_sample :
    Sample.requests.length < 2 ^ 64 ∧
    ((ofBudget (some 5)).turns Sample.requests).map (·.after) =
      [⟨1, 1, 0, 3⟩, ⟨1, 1, 0, 3⟩, ⟨1, 1, 1, 5⟩, ⟨1, 1, 1, 5⟩, ⟨1, 1, 1, 5⟩] ∧
    grantedIn ((ofBudget (some 5)).turns Sample.requests) = [⟨.object .immutable, 3⟩, ⟨.fragment, 2⟩] ∧
    (∀ t ∈ (ofBudget (some 5)).turns Sample.requests, t.Answered (some 5)) ∧
    ((grantedIn ((ofBudget (some 5)).turns Sample.requests)).map (·.slots)).sum ≤ 5 ∧
    ∃ u ∈ (ofBudget (some 5)).turns Sample.requests, u.request.slots = 2 ^ 64 - 1 ∧
      u.PassesBudget (some 5) := by
  have hcount : Sample.requests.length < 2 ^ 64 := by decide
  obtain ⟨-, hanswered, hcounts, hlater, -⟩ := lifetime_budget (some 5) Sample.requests hcount
  obtain ⟨-, -, hsum⟩ := hcounts (((ofBudget (some 5)).turns Sample.requests).take 4) _ [] rfl
  refine ⟨hcount, rfl, rfl, hanswered, hsum 5 rfl (by decide), _, List.mem_of_getElem? (i := 4) rfl, rfl, ?_⟩
  have hpair := List.pairwise_iff_getElem.1 hlater 1 4 (by decide) (by decide) (by decide)
  exact (hpair ⟨5, rfl, by decide⟩ (by decide)).1

end ObjectRuntime
