import ObjectRuntime.Proofs.Problems

/-! Rules of a manifest. A rule is one requirement at one place: it has a code and a pointer, and no two
rules share both. The problems that a check finds are about the rules that the manifest breaks, each of
them once. -/

namespace ObjectRuntime

/-- A requirement at one place of a manifest. -/
inductive Rule where
  | version
  | capabilities
  | gapCode (a : SpecialAttr)
  | sharedCode (a : SpecialAttr)
  | outsideFunction (a : SpecialAttr)
  | repeatedAttribute (table : String) (pos : Nat)
  | boundsReversed (table : String)
  | positionAtMax (table : String) (slot : Nat)
  | contextPosition (table : String) (slot : Nat)
  | repeatedParam (table : String) (slot : Nat)
  | sharedPosition (table : String) (slot : Nat)
deriving DecidableEq

namespace Rule

def code : Rule → String
  | version => "TARN-LAYOUT-0001"
  | capabilities => "TARN-LAYOUT-0002"
  | gapCode _ => "TARN-LAYOUT-0003"
  | outsideFunction _ => "TARN-LAYOUT-0004"
  | sharedCode _ => "TARN-LAYOUT-0005"
  | repeatedAttribute _ _ => "TARN-LAYOUT-0010"
  | boundsReversed _ => "TARN-LAYOUT-0020"
  | positionAtMax _ _ => "TARN-LAYOUT-0021"
  | repeatedParam _ _ => "TARN-LAYOUT-0022"
  | sharedPosition _ _ => "TARN-LAYOUT-0023"
  | contextPosition _ _ => "TARN-LAYOUT-0024"

def pointer : Rule → String
  | version => "/schema_version"
  | capabilities => "/caps"
  | gapCode a | sharedCode a => "/layout/" ++ a.name ++ "/code"
  | outsideFunction a => "/layout/" ++ a.name ++ "/pos"
  | repeatedAttribute table pos => "/tables/" ++ table ++ "/" ++ Problem.decimal pos
  | boundsReversed table => "/ptables/" ++ table ++ "/min"
  | positionAtMax table slot | contextPosition table slot | sharedPosition table slot =>
    Problem.paramPointer table slot "pos"
  | repeatedParam table slot => Problem.paramPointer table slot "code"

/-! ### Places -/

theorem slash_notMem_decimal (n : Nat) : '/' ∉ (Problem.decimal n).toList := by
  rw [Problem.decimal, String.toList_ofList]
  intro h
  have hdigit := Nat.isDigit_of_mem_toDigits (by decide) (by decide) h
  revert hdigit
  decide

theorem decimal_injective {m n : Nat} (h : Problem.decimal m = Problem.decimal n) : m = n := by
  have h := String.ofList_injective h
  rw [← Nat.ofDigitChars_ten_toDigits (n := m), h, Nat.ofDigitChars_ten_toDigits]

theorem after_last_slash (s : String) (n : Nat) :
    (s ++ "/" ++ Problem.decimal n).toList.reverse.takeWhile (· ≠ '/') =
      (Problem.decimal n).toList.reverse := by
  have hdigits : ∀ c ∈ (Problem.decimal n).toList.reverse, decide (c ≠ '/') = true := by
    intro c hc
    rw [decide_eq_true_iff]
    rintro rfl
    exact slash_notMem_decimal n (List.mem_reverse.1 hc)
  rw [String.toList_append, String.toList_append, List.reverse_append, List.reverse_append,
    List.takeWhile_append_of_pos hdigits]
  exact List.append_nil _

/-- A number after the last slash can be told from what precedes it, slashes or not. -/
theorem append_decimal_injective {s t : String} {m n : Nat}
    (h : s ++ "/" ++ Problem.decimal m = t ++ "/" ++ Problem.decimal n) : s = t ∧ m = n := by
  have hlast := congrArg (fun u => u.toList.reverse.takeWhile (· ≠ '/')) h
  simp only [after_last_slash] at hlast
  obtain rfl := decimal_injective (String.toList_injective (List.reverse_injective hlast))
  exact ⟨(String.append_left_inj _).1 ((String.append_left_inj _).1 h), rfl⟩

theorem name_injective {a b : SpecialAttr} (h : a.name = b.name) : a = b := by
  revert h
  cases a <;> cases b <;> decide

theorem attr_pointer_injective {field : String} {a b : SpecialAttr}
    (h : "/layout/" ++ a.name ++ field = "/layout/" ++ b.name ++ field) : a = b :=
  name_injective ((String.append_right_inj _).1 ((String.append_left_inj _).1 h))

theorem table_pointer_injective {s t : String} {m n : Nat}
    (h : pointer (.repeatedAttribute s m) = pointer (.repeatedAttribute t n)) : s = t ∧ m = n := by
  obtain ⟨htable, hpos⟩ := append_decimal_injective h
  exact ⟨(String.append_right_inj _).1 htable, hpos⟩

theorem param_pointer_injective {field s t : String} {m n : Nat}
    (h : Problem.paramPointer s m field = Problem.paramPointer t n field) : s = t ∧ m = n := by
  have h := (String.append_left_inj _).1 ((String.append_left_inj _).1 h)
  have hsplit : "/params/" = "/params" ++ "/" := rfl
  rw [hsplit, ← String.append_assoc, ← String.append_assoc] at h
  obtain ⟨htable, hslot⟩ := append_decimal_injective h
  exact ⟨(String.append_right_inj _).1 ((String.append_left_inj _).1 htable), hslot⟩

/-- No two rules share both code and pointer. -/
theorem eq_of_place {r s : Rule} (hcode : r.code = s.code) (hpointer : r.pointer = s.pointer) : r = s := by
  -- equal codes leave two rules of one kind, which the pointer tells apart
  cases r <;> cases s <;> first | exact absurd hcode (by simp only [code]; decide) | skip
  · rfl
  · rfl
  · rw [attr_pointer_injective hpointer]
  · rw [attr_pointer_injective hpointer]
  · rw [attr_pointer_injective hpointer]
  · obtain ⟨rfl, rfl⟩ := table_pointer_injective hpointer
    rfl
  · rw [(String.append_right_inj _).1 ((String.append_left_inj _).1 hpointer)]
  all_goals
    obtain ⟨rfl, rfl⟩ := param_pointer_injective hpointer
    rfl

/-! ### Broken rules -/

/-- What it means that the manifest breaks a rule. -/
def Broken (m : Manifest) : Rule → Prop
  | version => m.schemaVersion ≠ Manifest.supportedVersion
  | capabilities => ∀ s, CapabilitySet.parse m.caps ≠ .ok s
  | gapCode a => (m.layout.slot a).code = ObjectRuntime.gapCode
  | sharedCode a => (m.layout.slot a).code ≠ ObjectRuntime.gapCode ∧
    ∃ b ∈ a.earlier, (m.layout.slot b).code = (m.layout.slot a).code
  | outsideFunction a => (a = .args ∨ a = .fn) ∧ m.layout.functionSize ≤ (m.layout.slot a).pos
  | repeatedAttribute table pos => ∃ t code, m.tables.get? table = some t ∧ t.Repeats pos code
  | boundsReversed table => ∃ t, m.paramTables.get? table = some t ∧ t.max < t.min
  | positionAtMax table slot => ∃ t p, m.paramTables.get? table = some t ∧ t.Declares slot p ∧
    t.max.toNat ≤ p.pos.toNat
  | contextPosition table slot => ∃ t p, m.paramTables.get? table = some t ∧ t.Declares slot p ∧
    p.pos = 0
  | repeatedParam table slot => ∃ t p, m.paramTables.get? table = some t ∧ t.Declares slot p ∧
    ∃ j < slot, ∃ q, t.Declares j q ∧ q.code = p.code
  | sharedPosition table slot => ∃ t p, m.paramTables.get? table = some t ∧ t.Declares slot p ∧
    ∃ j < slot, ∃ q, t.Declares j q ∧ q.pos = p.pos

end Rule

/-- The rule that a problem is about. -/
def Problem.rule : Problem → Rule
  | version _ => .version
  | capabilities _ => .capabilities
  | gapCode a => .gapCode a
  | sharedCode a _ _ => .sharedCode a
  | outsideFunction a _ _ => .outsideFunction a
  | repeatedAttribute table pos _ => .repeatedAttribute table pos
  | boundsReversed table _ _ => .boundsReversed table
  | positionAtMax table slot _ _ => .positionAtMax table slot
  | contextPosition table slot => .contextPosition table slot
  | repeatedParam table slot _ => .repeatedParam table slot
  | sharedPosition table slot _ => .sharedPosition table slot

theorem Problem.code_toDiagnostic (p : Problem) : p.toDiagnostic.code = p.rule.code := by
  cases p <;> rfl

theorem Problem.pointer_toDiagnostic (p : Problem) : p.toDiagnostic.pointer = p.rule.pointer := by
  cases p <;> rfl

theorem Layout.exists_owner_iff {l : Layout} {a : SpecialAttr} :
    (∃ b, l.owner a = some b) ↔ ∃ b ∈ a.earlier, (l.slot b).code = (l.slot a).code := by
  rw [← Option.isSome_iff_exists, owner, List.find?_isSome]
  simp only [List.mem_reverse, decide_eq_true_eq]

namespace Manifest

variable {m : Manifest}

theorem broken_of_mem_problems {p : Problem} (h : p ∈ m.problems) : p.rule.Broken m := by
  rcases mem_problems_iff.1 h with ⟨hversion, rfl⟩ | ⟨e, he, rfl⟩ | h | ⟨name, t, ht, h⟩ | ⟨name, t, ht, h⟩
  · exact hversion
  · intro s hs
    rw [he] at hs
    cases hs
  · rcases Layout.mem_problems_iff.1 h with ⟨a, hgap, rfl⟩ | ⟨a, b, hne, howner, rfl⟩ | ⟨a, ha, hle, rfl⟩
    · exact hgap
    · exact ⟨hne, Layout.exists_owner_iff.1 ⟨b, howner⟩⟩
    · exact ⟨ha, hle⟩
  · obtain ⟨pos, code, hrepeats, rfl⟩ := Table.mem_problems_iff.1 h
    exact ⟨t, code, ht, hrepeats⟩
  · rcases ParamTable.mem_problems_iff.1 h with ⟨hlt, rfl⟩ | ⟨slot, q, hq, hmisplaced⟩
    · exact ⟨t, ht, hlt⟩
    · cases hmisplaced with
      | atMax hle => exact ⟨t, q, ht, hq, hle⟩
      | context hzero => exact ⟨t, q, ht, hq, hzero⟩
      | code hj hq' heq => exact ⟨t, q, ht, hq, _, hj, _, hq', heq⟩
      | position hj hq' heq => exact ⟨t, q, ht, hq, _, hj, _, hq', heq⟩

theorem exists_mem_problems_of_broken {r : Rule} (h : r.Broken m) : ∃ p ∈ m.problems, p.rule = r := by
  have hlayout {p : Problem} (hp : p ∈ m.layout.problems) : p ∈ m.problems :=
    mem_problems_iff.2 (Or.inr (Or.inr (Or.inl hp)))
  have htable {name : String} {t : Table} {p : Problem} (ht : m.tables.get? name = some t)
      (hp : p ∈ t.problems name) : p ∈ m.problems :=
    mem_problems_iff.2 (Or.inr (Or.inr (Or.inr (Or.inl ⟨name, t, ht, hp⟩))))
  have hparam {name : String} {t : ParamTable} {p : Problem} (ht : m.paramTables.get? name = some t)
      (hp : p ∈ t.problems name) : p ∈ m.problems :=
    mem_problems_iff.2 (Or.inr (Or.inr (Or.inr (Or.inr ⟨name, t, ht, hp⟩))))
  have hmisplaced {name : String} {t : ParamTable} {slot : Nat} {q : Param} {p : Problem}
      (ht : m.paramTables.get? name = some t) (hq : t.Declares slot q)
      (hp : t.Misplaces name slot q p) : p ∈ m.problems :=
    hparam ht (ParamTable.mem_problems_iff.2 (Or.inr ⟨slot, q, hq, hp⟩))
  cases r with
  | version => exact ⟨_, mem_problems_iff.2 (Or.inl ⟨h, rfl⟩), rfl⟩
  | capabilities =>
    cases hparse : CapabilitySet.parse m.caps with
    | ok s => exact absurd hparse (h s)
    | error e => exact ⟨_, mem_problems_iff.2 (Or.inr (Or.inl ⟨e, hparse, rfl⟩)), rfl⟩
  | gapCode a => exact ⟨_, hlayout (Layout.mem_problems_iff.2 (Or.inl ⟨a, h, rfl⟩)), rfl⟩
  | sharedCode a =>
    obtain ⟨b, hb⟩ := Layout.exists_owner_iff.2 h.2
    exact ⟨_, hlayout (Layout.mem_problems_iff.2 (Or.inr (Or.inl ⟨a, b, h.1, hb, rfl⟩))), rfl⟩
  | outsideFunction a =>
    exact ⟨_, hlayout (Layout.mem_problems_iff.2 (Or.inr (Or.inr ⟨a, h.1, h.2, rfl⟩))), rfl⟩
  | repeatedAttribute table pos =>
    obtain ⟨t, code, ht, hrepeats⟩ := h
    exact ⟨_, htable ht (Table.mem_problems_iff.2 ⟨pos, code, hrepeats, rfl⟩), rfl⟩
  | boundsReversed table =>
    obtain ⟨t, ht, hlt⟩ := h
    exact ⟨_, hparam ht (ParamTable.mem_problems_iff.2 (Or.inl ⟨hlt, rfl⟩)), rfl⟩
  | positionAtMax table slot =>
    obtain ⟨t, q, ht, hq, hle⟩ := h
    exact ⟨_, hmisplaced ht hq (.atMax hle), rfl⟩
  | contextPosition table slot =>
    obtain ⟨t, q, ht, hq, hzero⟩ := h
    exact ⟨_, hmisplaced ht hq (.context hzero), rfl⟩
  | repeatedParam table slot =>
    obtain ⟨t, q, ht, hq, j, hj, q', hq', heq⟩ := h
    exact ⟨_, hmisplaced ht hq (.code hj hq' heq), rfl⟩
  | sharedPosition table slot =>
    obtain ⟨t, q, ht, hq, j, hj, q', hq', heq⟩ := h
    exact ⟨_, hmisplaced ht hq (.position hj hq' heq), rfl⟩

end Manifest

/-! ### Each rule once -/

/-- The part of the manifest that a rule is about, in the order of the check. -/
def Rule.part : Rule → Nat
  | version => 0
  | capabilities => 1
  | gapCode _ | sharedCode _ | outsideFunction _ => 2
  | repeatedAttribute _ _ => 3
  | boundsReversed _ => 4
  | positionAtMax _ _ | contextPosition _ _ | repeatedParam _ _ | sharedPosition _ _ => 5

/-- The table that a rule is about and the position in it. -/
def Rule.entry : Rule → String × Nat
  | repeatedAttribute table pos => (table, pos)
  | boundsReversed table => (table, 0)
  | positionAtMax table slot | contextPosition table slot | repeatedParam table slot
  | sharedPosition table slot => (table, slot)
  | _ => ("", 0)

/-- Two problems are about different rules. -/
def Problem.Apart (p q : Problem) : Prop := p.rule ≠ q.rule

theorem Problem.apart_of_part {p q : Problem} (h : p.rule.part ≠ q.rule.part) : p.Apart q :=
  fun heq => h (congrArg Rule.part heq)

theorem Problem.apart_of_entry {p q : Problem} (h : p.rule.entry ≠ q.rule.entry) : p.Apart q :=
  fun heq => h (congrArg Rule.entry heq)

theorem pairwise_codeProblems {l : Layout} {as : List SpecialAttr} (has : as.Nodup) :
    (codeProblems [] (as.map fun a => (a, l.slot a))).Pairwise Problem.Apart := by
  have hrule {seen : List (SpecialAttr × AttrSlot)} {x : SpecialAttr × AttrSlot} {p : Problem}
      (h : p ∈ codeProblem seen x) : p.rule = .gapCode x.1 ∨ p.rule = .sharedCode x.1 := by
    rcases mem_codeProblem_iff.1 h with ⟨-, rfl⟩ | ⟨-, b, -, rfl⟩
    · exact Or.inl rfl
    · exact Or.inr rfl
  rw [show ([] : List (SpecialAttr × AttrSlot)) = [].reverse from rfl, codeProblems_eq_visit _ _ 0]
  refine pairwise_visit (fun seen _ x => ?_) fun i j x y hij hx hy seen seen' p hp q hq => ?_
  · unfold codeProblem
    split
    · exact List.pairwise_singleton _ _
    · split
      · exact List.pairwise_singleton _ _
      · exact List.Pairwise.nil
  · rw [List.getElem?_map, Option.map_eq_some_iff] at hx hy
    obtain ⟨a, ha, rfl⟩ := hx
    obtain ⟨b, hb, rfl⟩ := hy
    have hne : a ≠ b := by
      rintro rfl
      have hi := (List.getElem?_eq_some_iff.1 ha).1
      exact hij.ne ((List.getElem?_inj hi has).1 (ha.trans hb.symm))
    rw [Problem.Apart]
    rcases hrule hp with hp | hp <;> rcases hrule hq with hq | hq <;> simp [hp, hq, hne]

theorem Layout.pairwise_problems (l : Layout) : l.problems.Pairwise Problem.Apart := by
  rw [problems, List.pairwise_append]
  refine ⟨pairwise_codeProblems SpecialAttr.nodup_all, ?_, fun p hp q hq => ?_⟩
  · rw [List.pairwise_flatMap]
    refine ⟨fun a _ => ?_, ?_⟩
    · split
      · exact List.pairwise_singleton _ _
      · exact List.Pairwise.nil
    · simp [Problem.Apart, Problem.rule]
  · simp only [List.mem_flatMap, List.mem_ite_nil_right, List.mem_singleton] at hq
    obtain ⟨b, -, -, rfl⟩ := hq
    obtain ⟨a, ⟨-, rfl⟩ | ⟨-, c, -, rfl⟩⟩ := mem_codeProblems_iff.1 hp
    · simp [Problem.Apart, Problem.rule]
    · simp [Problem.Apart, Problem.rule]

theorem Table.pairwise_problems (name : String) (t : Table) :
    (t.problems name).Pairwise Problem.Apart := by
  rw [problems, repeatedAttributes_eq_visit]
  refine pairwise_visit (fun seen pos code => ?_) fun i j x y hij _ _ seen seen' p hp q hq => ?_
  · split
    · exact List.pairwise_singleton _ _
    · exact List.Pairwise.nil
  · simp only [List.mem_ite_nil_right, List.mem_singleton] at hp hq
    obtain ⟨-, rfl⟩ := hp
    obtain ⟨-, rfl⟩ := hq
    exact Problem.apart_of_entry (by simp [Problem.rule, Rule.entry, hij.ne])

theorem Param.entry_of_mem_problems {table : String} {max : UInt32} {seen : List Param} {slot : Nat}
    {q : Param} {p : Problem} (h : p ∈ q.problems table max seen slot) :
    p.rule.part = 5 ∧ p.rule.entry = (table, slot) := by
  simp only [problems, List.mem_append, List.mem_ite_nil_right, List.mem_singleton] at h
  rcases h with ((⟨-, rfl⟩ | ⟨-, rfl⟩) | ⟨-, rfl⟩) | ⟨-, rfl⟩ <;> exact ⟨rfl, rfl⟩

theorem Param.pairwise_problems (table : String) (max : UInt32) (seen : List Param) (slot : Nat)
    (q : Param) : (q.problems table max seen slot).Pairwise Problem.Apart := by
  unfold problems
  split <;> split <;> split <;> split <;> simp [Problem.Apart, Problem.rule]

theorem ParamTable.pairwise_problems (name : String) (t : ParamTable) :
    (t.problems name).Pairwise Problem.Apart := by
  rw [problems, List.pairwise_append,
    show ([] : List Param) = [].filter fun p => !p.isGap from rfl, paramProblems_eq_visit]
  refine ⟨?_, pairwise_visit (fun seen slot q => ?_) fun i j x y hij _ _ seen seen' p hp q hq => ?_,
    fun p hp q hq => ?_⟩
  · split
    · exact List.pairwise_singleton _ _
    · exact List.Pairwise.nil
  · split
    · exact List.Pairwise.nil
    · exact q.pairwise_problems name t.max _ slot
  · simp only [List.mem_ite_nil_left] at hp hq
    refine Problem.apart_of_entry ?_
    rw [(Param.entry_of_mem_problems hp.2).2, (Param.entry_of_mem_problems hq.2).2]
    simp [hij.ne]
  · simp only [List.mem_ite_nil_right, List.mem_singleton] at hp
    obtain ⟨-, rfl⟩ := hp
    obtain ⟨i, x, -, hq⟩ := mem_visit_iff.1 hq
    rw [List.mem_ite_nil_left] at hq
    refine Problem.apart_of_part ?_
    rw [(Param.entry_of_mem_problems hq.2).1]
    simp [Problem.rule, Rule.part]

theorem Layout.part_of_mem_problems {l : Layout} {p : Problem} (h : p ∈ l.problems) :
    p.rule.part = 2 := by
  rcases mem_problems_iff.1 h with ⟨a, -, rfl⟩ | ⟨a, b, -, -, rfl⟩ | ⟨a, -, -, rfl⟩ <;> rfl

theorem Table.entry_of_mem_problems {name : String} {t : Table} {p : Problem}
    (h : p ∈ t.problems name) : p.rule.part = 3 ∧ p.rule.entry.1 = name := by
  obtain ⟨pos, code, -, rfl⟩ := mem_problems_iff.1 h
  exact ⟨rfl, rfl⟩

theorem ParamTable.entry_of_mem_problems {name : String} {t : ParamTable} {p : Problem}
    (h : p ∈ t.problems name) : (4 ≤ p.rule.part ∧ p.rule.part < 6) ∧ p.rule.entry.1 = name := by
  rcases mem_problems_iff.1 h with ⟨-, rfl⟩ | ⟨slot, q, -, hmisplaced⟩
  · exact ⟨by simp [Problem.rule, Rule.part], rfl⟩
  · cases hmisplaced <;> exact ⟨by simp [Problem.rule, Rule.part], rfl⟩

/-- Different tables of a map are about different entries. -/
theorem NameMap.pairwise_flatMap {α : Type} {m : NameMap α} {f : String × α → List Problem}
    (hone : ∀ e, (f e).Pairwise Problem.Apart) (hname : ∀ e, ∀ p ∈ f e, p.rule.entry.1 = e.1) :
    (m.entries.flatMap f).Pairwise Problem.Apart := by
  rw [List.pairwise_flatMap]
  refine ⟨fun e _ => hone e, m.sorted.imp fun {a b} hlt p hp q hq => Problem.apart_of_entry ?_⟩
  intro heq
  rw [← hname a p hp, ← hname b q hq, heq] at hlt
  exact String.lt_irrefl _ hlt

/-- What has been found when the check comes to this part. -/
structure FoundBefore (part : Nat) (ps : List Problem) : Prop where
  pairwise : ps.Pairwise Problem.Apart
  part_lt : ∀ p ∈ ps, p.rule.part < part

theorem FoundBefore.append {m n : Nat} {ps qs : List Problem} (h : FoundBefore m ps) (hmn : m ≤ n)
    (hqs : qs.Pairwise Problem.Apart) (hpart : ∀ q ∈ qs, m ≤ q.rule.part ∧ q.rule.part < n) :
    FoundBefore n (ps ++ qs) where
  pairwise := List.pairwise_append.2 ⟨h.pairwise, hqs, fun p hp q hq =>
    Problem.apart_of_part (Nat.lt_of_lt_of_le (h.part_lt p hp) (hpart q hq).1).ne⟩
  part_lt := List.forall_mem_append.2
    ⟨fun p hp => Nat.lt_of_lt_of_le (h.part_lt p hp) hmn, fun q hq => (hpart q hq).2⟩

/-- The version and the capabilities come first. -/
theorem Manifest.exists_problems_eq (m : Manifest) : ∃ head, FoundBefore 2 head ∧
    m.problems = head ++ m.layout.problems ++ (m.tables.entries.flatMap fun e => e.2.problems e.1) ++
      m.paramTables.entries.flatMap fun e => e.2.problems e.1 := by
  have hversion : FoundBefore 1 (if m.schemaVersion = supportedVersion then []
      else [Problem.version m.schemaVersion]) := by
    split <;> exact ⟨by simp, by simp [Problem.rule, Rule.part]⟩
  refine ⟨_, hversion.append (by decide) ?_ ?_, rfl⟩
  · split <;> simp
  · split <;> simp [Problem.rule, Rule.part]

/-- No rule is reported twice. -/
theorem Manifest.pairwise_problems (m : Manifest) : m.problems.Pairwise Problem.Apart := by
  obtain ⟨head, hhead, hproblems⟩ := m.exists_problems_eq
  have hlayout := hhead.append (n := 3) (by decide) m.layout.pairwise_problems fun p hp => by
    rw [Layout.part_of_mem_problems hp]
    decide
  have htables := hlayout.append (n := 4) (by decide)
    (NameMap.pairwise_flatMap (m := m.tables) (fun e => e.2.pairwise_problems e.1)
      fun e p hp => (Table.entry_of_mem_problems hp).2) fun p hp => by
    obtain ⟨name, t, -, hp⟩ := NameMap.mem_flatMap_iff.1 hp
    rw [(Table.entry_of_mem_problems hp).1]
    decide
  have hparams := htables.append (n := 6) (by decide)
    (NameMap.pairwise_flatMap (m := m.paramTables) (fun e => e.2.pairwise_problems e.1)
      fun e p hp => (ParamTable.entry_of_mem_problems hp).2) fun p hp => by
    obtain ⟨name, t, -, hp⟩ := NameMap.mem_flatMap_iff.1 hp
    exact (ParamTable.entry_of_mem_problems hp).1
  exact hproblems ▸ hparams.pairwise

/-! ### The check -/

variable {m : Manifest}

theorem Manifest.countP_validate (r : Rule) :
    m.validate.countP (fun d => d.code = r.code ∧ d.pointer = r.pointer) =
      (m.problems.map Problem.rule).count r := by
  rw [validate, List.countP_map, List.count, List.countP_map]
  refine List.countP_congr fun p _ => ?_
  simp only [Function.comp, decide_eq_true_eq, beq_iff_eq, Problem.code_toDiagnostic,
    Problem.pointer_toDiagnostic]
  refine ⟨?_, ?_⟩
  · intro h
    obtain ⟨hcode, hpointer⟩ := h
    exact Rule.eq_of_place hcode hpointer
  · rintro rfl
    exact ⟨rfl, rfl⟩

theorem Manifest.nodup_rules (m : Manifest) : (m.problems.map Problem.rule).Nodup :=
  List.pairwise_map.2 m.pairwise_problems

/-- Every broken rule is reported at its place just once, and no other rule is reported. -/
theorem Manifest.countP_validate_eq (r : Rule) [Decidable (r.Broken m)] :
    m.validate.countP (fun d => d.code = r.code ∧ d.pointer = r.pointer) =
      if r.Broken m then 1 else 0 := by
  rw [countP_validate]
  split
  · rename_i hbroken
    obtain ⟨p, hp, hrule⟩ := exists_mem_problems_of_broken hbroken
    exact List.count_eq_one_of_mem m.nodup_rules (List.mem_map.2 ⟨p, hp, hrule⟩)
  · rename_i hkept
    refine List.count_eq_zero_of_not_mem fun hmem => hkept ?_
    obtain ⟨p, hp, hrule⟩ := List.mem_map.1 hmem
    exact hrule ▸ broken_of_mem_problems hp

theorem Manifest.exists_broken_of_mem_validate {d : Diagnostic} (h : d ∈ m.validate) :
    ∃ r : Rule, r.Broken m ∧ d.code = r.code ∧ d.pointer = r.pointer := by
  obtain ⟨p, hp, rfl⟩ := List.mem_map.1 h
  exact ⟨p.rule, broken_of_mem_problems hp, p.code_toDiagnostic, p.pointer_toDiagnostic⟩

theorem Manifest.validate_eq_nil_iff : m.validate = [] ↔ ∀ r : Rule, ¬ r.Broken m := by
  rw [validate, List.map_eq_nil_iff, List.eq_nil_iff_forall_not_mem]
  refine ⟨?_, ?_⟩
  · intro h r hbroken
    obtain ⟨p, hp, -⟩ := exists_mem_problems_of_broken hbroken
    exact h p hp
  · intro h p hp
    exact h p.rule (broken_of_mem_problems hp)

end ObjectRuntime
