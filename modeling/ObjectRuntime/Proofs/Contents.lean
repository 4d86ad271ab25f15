import ObjectRuntime.Proofs.Records
import ObjectRuntime.Proofs.Results

/-! What a document says, apart from where in its text it does. Readers look at nothing else, but for the places
in their errors: whether a value is taken, and for what, is the same wherever it stands and however it is set. -/

namespace ObjectRuntime.Json

/-- A value as it is written. A string may spell no text. -/
inductive Content where
  | null
  | bool (b : Bool)
  | number (l : Lexeme)
  | string (s : Option String)
  | array (items : List Content)
  | object (members : List (Option String × Content))

/-- A name with what is written for it. -/
abbrev Member := Option String × Content

mutual

def Content.same : Content → Content → Bool
  | .null, .null => true
  | .bool b, .bool b' => b == b'
  | .number l, .number l' => l == l'
  | .string s, .string s' => s == s'
  | .array cs, .array cs' => sameItems cs cs'
  | .object ms, .object ms' => sameMembers ms ms'
  | _, _ => false

def sameItems : List Content → List Content → Bool
  | [], [] => true
  | c :: cs, c' :: cs' => c.same c' && sameItems cs cs'
  | _, _ => false

def sameMembers : List Member → List Member → Bool
  | [], [] => true
  | (key, c) :: ms, (key', c') :: ms' => key == key' && c.same c' && sameMembers ms ms'
  | _, _ => false

end

mutual

theorem same_iff : (c c' : Content) → (c.same c' ↔ c = c')
  | .null, c' => by cases c' <;> simp [Content.same]
  | .bool b, c' => by cases c' <;> simp [Content.same]
  | .number l, c' => by cases c' <;> simp [Content.same]
  | .string s, c' => by cases c' <;> simp [Content.same]
  | .array cs, c' => by cases c' <;> simp [Content.same, sameItems_iff cs]
  | .object ms, c' => by cases c' <;> simp [Content.same, sameMembers_iff ms]

theorem sameItems_iff : (cs cs' : List Content) → (sameItems cs cs' ↔ cs = cs')
  | [], cs' => by cases cs' <;> simp [sameItems]
  | c :: cs, cs' => by cases cs' <;> simp [sameItems, same_iff c, sameItems_iff cs]

theorem sameMembers_iff : (ms ms' : List Member) → (sameMembers ms ms' ↔ ms = ms')
  | [], ms' => by cases ms' <;> simp [sameMembers]
  | (key, c) :: ms, ms' => by
    cases ms' <;> simp [sameMembers, same_iff c, sameMembers_iff ms, Prod.ext_iff]

end

instance : DecidableEq Content := fun c c' => decidable_of_iff _ (same_iff c c')

mutual

/-- What is written, if nothing of it breaks the grammar. -/
def Node.content? : Node → Option Content
  | .null _ => some .null
  | .bool b _ => some (.bool b)
  | .number l _ => some (.number l)
  | .string s _ => some (.string s.toOption)
  | .array _ items => items.contents?.map .array
  | .object _ members => members.contents?.map .object
  | .broken _ => none

def Items.contents? : Items → Option (List Content)
  | .close _ => some []
  | .broken _ => none
  | .cons _ head tail => do return (← head.content?) :: (← tail.contents?)

def Members.contents? : Members → Option (List Member)
  | .close _ => some []
  | .broken _ => none
  | .cons key _ value tail => do return (key.toOption, ← value.content?) :: (← tail.contents?)

end

/-- What a well-formed document says. -/
def Document.content? (d : Document) : Option Content :=
  match d.excess with
  | some _ => none
  | none => d.root.content?

def spelling : Option String → Spelling
  | some s => .ok s
  | none => .error ⟨.loneSurrogate, 0⟩

mutual

/-- A node with this content; it stands nowhere in particular. -/
def Content.node : Content → Node
  | .null => .null 0
  | .bool b => .bool b 0
  | .number l => .number l 0
  | .string s => .string (spelling s) 0
  | .array items => .array 0 (itemsOf items)
  | .object members => .object 0 (membersOf members)

def itemsOf : List Content → Items
  | [] => .close 0
  | c :: cs => .cons 0 c.node (itemsOf cs)

def membersOf : List Member → Members
  | [] => .close 0
  | (key, c) :: ms => .cons (spelling key) 0 c.node (membersOf ms)

end

@[simp] theorem toOption_spelling (s : Option String) : (spelling s).toOption = s := by
  cases s <;> rfl

mutual

@[simp] theorem content?_node : (c : Content) → c.node.content? = some c
  | .null => rfl
  | .bool _ => rfl
  | .number _ => rfl
  | .string s => by simp [Content.node, Node.content?]
  | .array items => by simp [Content.node, Node.content?, contents?_itemsOf items]
  | .object members => by simp [Content.node, Node.content?, contents?_membersOf members]

@[simp] theorem contents?_itemsOf : (cs : List Content) → (itemsOf cs).contents? = some cs
  | [] => rfl
  | c :: cs => by simp [itemsOf, Items.contents?, content?_node c, contents?_itemsOf cs]

@[simp] theorem contents?_membersOf : (ms : List Member) → (membersOf ms).contents? = some ms
  | [] => rfl
  | (key, c) :: ms => by simp [membersOf, Members.contents?, content?_node c, contents?_membersOf ms]

end

/-! ### Well-formed nodes -/

section Nodes

variable {head : Node} {items : Items} {members : Members} {start stop : Nat} {c : Content}
  {cs : List Content} {ms : List Member} {key : Spelling}

theorem contents?_cons_items : (Items.cons start head items).contents? = some cs ↔
    ∃ c cs', head.content? = some c ∧ items.contents? = some cs' ∧ c :: cs' = cs := by
  simp [Items.contents?, Option.bind_eq_some_iff]

theorem contents?_cons_members : (Members.cons key stop head members).contents? = some ms ↔
    ∃ c ms', head.content? = some c ∧ members.contents? = some ms' ∧ (key.toOption, c) :: ms' = ms := by
  simp [Members.contents?, Option.bind_eq_some_iff]

theorem content?_array : (Node.array start items).content? = some c ↔
    ∃ cs, items.contents? = some cs ∧ .array cs = c := Option.map_eq_some_iff

theorem content?_object : (Node.object start members).content? = some c ↔
    ∃ ms, members.contents? = some ms ∧ .object ms = c := Option.map_eq_some_iff

end Nodes

mutual

/-- A value is well formed if nothing is wrong with it for one who passes over it. -/
theorem Node.fault?_eq_none_iff : (n : Node) → (n.fault? = none ↔ ∃ c, n.content? = some c)
  | .null _ => by simp [Node.fault?, Node.content?]
  | .bool _ _ => by simp [Node.fault?, Node.content?]
  | .number _ _ => by simp [Node.fault?, Node.content?]
  | .string _ _ => by simp [Node.fault?, Node.content?]
  | .array _ items => by simp [Node.fault?, content?_array, Items.fault?_eq_none_iff items]
  | .object _ members => by simp [Node.fault?, content?_object, Members.fault?_eq_none_iff members]
  | .broken _ => by simp [Node.fault?, Node.content?]

theorem Items.fault?_eq_none_iff : (items : Items) → (items.fault? = none ↔ ∃ cs, items.contents? = some cs)
  | .close _ => by simp [Items.fault?, Items.contents?]
  | .broken _ => by simp [Items.fault?, Items.contents?]
  | .cons _ head tail => by
    rw [Items.fault?, Option.or_eq_none_iff, Node.fault?_eq_none_iff head, Items.fault?_eq_none_iff tail]
    simp [contents?_cons_items]

theorem Members.fault?_eq_none_iff : (members : Members) →
    (members.fault? = none ↔ ∃ ms, members.contents? = some ms)
  | .close _ => by simp [Members.fault?, Members.contents?]
  | .broken _ => by simp [Members.fault?, Members.contents?]
  | .cons _ _ value tail => by
    rw [Members.fault?, Option.or_eq_none_iff, Node.fault?_eq_none_iff value, Members.fault?_eq_none_iff tail]
    simp [contents?_cons_members]

end

/-! ### Scalars, lists and maps -/

section Readers

variable {α β : Type} {read : Reader α} {n : Node} {c : Content} {a : α}

/-- What is written here is read as `a`. -/
def Takes (read : Reader α) (c : Content) (a : α) : Prop := read c.node = .ok a

/-- The reader takes well-formed values only, and which of them and for what depends on what is written there. -/
def ByContent (read : Reader α) : Prop :=
  ∀ n a, read n = .ok a ↔ ∃ c, n.content? = some c ∧ Takes read c a

theorem toOption_orMalformed (x : Except Fault α) : (orMalformed x).toOption = x.toOption := by
  cases x <;> rfl

theorem reject_ne_ok (expected : String) (n : Node) : (n.reject expected : Except ReadError α) ≠ .ok a := by
  unfold Node.reject
  cases n.found <;> nofun

/-! Whatever is not of the kind that a reader expects is refused wherever it stands. -/

theorem byContent_text : ByContent readText := by
  intro n a
  cases n with
  | string s stop =>
    simp only [Node.content?, Option.some.injEq, exists_eq_left', Takes, readText, Content.node]
    rw [ok_iff_toOption, ok_iff_toOption, toOption_orMalformed, toOption_orMalformed, toOption_spelling]
  | _ => simp [Takes, readText, Node.content?, Content.node, reject_ne_ok]

theorem readBelow_number {bound k : Nat} {expected : String} {l : Lexeme} {stop : Nat} :
    readBelow bound expected (.number l stop) = .ok k ↔
      ∃ v, l.value? = some (.unsigned v) ∧ v.toNat < bound ∧ v.toNat = k := by
  simp only [readBelow, wordOf]
  cases l.value? with
  | none => simp [orMalformed, Except.mapError, bind, Except.bind]
  | some v =>
    simp only [orMalformed, Except.mapError, bind, Except.bind]
    cases v with
    | unsigned w => by_cases hw : w.toNat < bound <;> simp [hw]
    | _ => simp

theorem byContent_below (bound : Nat) (expected : String) : ByContent (readBelow bound expected) := by
  intro n a
  cases n with
  | number l stop =>
    simp only [Node.content?, Option.some.injEq, exists_eq_left', Takes, Content.node]
    rw [readBelow_number, readBelow_number]
  | _ => simp [Takes, readBelow, Node.content?, Content.node, reject_ne_ok]

theorem takes_map {f : α → β} {b : β} : Takes (fun n => (read n).map f) c b ↔ ∃ a, Takes read c a ∧ b = f a :=
  map_eq_ok_iff

theorem ByContent.map (h : ByContent read) (f : α → β) : ByContent fun n => (read n).map f := by
  intro n b
  simp only [takes_map, map_eq_ok_iff, h n]
  grind

theorem readEach_items_iff (h : ByContent read) {items : Items} {as : List α} :
    items.readEach read = .ok as ↔ ∃ cs, items.contents? = some cs ∧ List.Forall₂ (Takes read) cs as := by
  induction as generalizing items with
  | nil =>
    cases items with
    | cons start head tail => simp [Items.readEach, bind_eq_ok_iff, pure, Except.pure, contents?_cons_items]
    | _ => simp [Items.readEach, Items.contents?]
  | cons a as ih =>
    cases items with
    | cons start head tail =>
      simp only [Items.readEach, bind_eq_ok_iff, pure, Except.pure, Except.ok.injEq, h head, contents?_cons_items,
        List.forall₂_cons_right_iff]
      grind
    | _ => simp [Items.readEach, Items.contents?]

/-- A list is taken if each of its items is. -/
theorem takes_list (h : ByContent read) {as : List α} :
    Takes (readList read) c as ↔ ∃ cs, c = .array cs ∧ List.Forall₂ (Takes read) cs as := by
  cases c with
  | array cs => simp [Takes, Content.node, readList, readEach_items_iff h]
  | _ => simp [Takes, Content.node, readList, reject_ne_ok]

theorem byContent_list (h : ByContent read) : ByContent (readList read) := by
  intro n as
  cases n with
  | array start items => simp [readList, readEach_items_iff h, Node.content?, takes_list h]
  | _ => simp [readList, Node.content?, takes_list h, reject_ne_ok]

/-- The member is taken for this entry. -/
def TakesMember (read : Reader α) (m : Member) (e : String × α) : Prop := m.1 = some e.1 ∧ Takes read m.2 e.2

theorem readEach_members_iff (h : ByContent read) {members : Members} {es : List (String × α)} :
    members.readEach read = .ok es ↔ ∃ ms, members.contents? = some ms ∧ List.Forall₂ (TakesMember read) ms es := by
  induction es generalizing members with
  | nil =>
    cases members with
    | cons key stop value tail => simp [Members.readEach, bind_eq_ok_iff, pure, Except.pure, contents?_cons_members]
    | _ => simp [Members.readEach, Members.contents?]
  | cons e es ih =>
    cases members with
    | cons key stop value tail =>
      simp only [Members.readEach, bind_eq_ok_iff, pure, Except.pure, Except.ok.injEq, h value,
        contents?_cons_members, List.forall₂_cons_right_iff, TakesMember, ok_iff_toOption (x := orMalformed key),
        toOption_orMalformed]
      grind
    | _ => simp [Members.readEach, Members.contents?]

/-- A map is taken if each of its members is. -/
theorem takes_entries (h : ByContent read) {m : NameMap α} : Takes (readMap read) c m ↔
    ∃ ms es, c = .object ms ∧ List.Forall₂ (TakesMember read) ms es ∧ m = .ofList es := by
  cases c with
  | object ms => simp [Takes, Content.node, readMap, map_eq_ok_iff, readEach_members_iff h]
  | _ => simp [Takes, Content.node, readMap, reject_ne_ok]

theorem byContent_map (h : ByContent read) : ByContent (readMap read) := by
  intro n m
  cases n with
  | object start members =>
    simp only [readMap, map_eq_ok_iff, readEach_members_iff h, content?_object, takes_entries h]
    grind
  | _ => simp [readMap, Node.content?, takes_entries h, reject_ne_ok]

end Readers

end ObjectRuntime.Json
