import Mathlib.Tactic
import ObjectRuntime.Json.Value

/-! Pointers into JSON values. A pointer is a list of tokens, each behind a slash; a token may hold
neither a slash nor a tilde as such, so these are escaped in it. A pointer is read as these tokens iff it
is what they are written as. -/

namespace ObjectRuntime.Json

/-! ### The syntax -/

namespace Pointer

/-- A token with its escapes undone. -/
def token? : List Char → Option (List Char)
  | [] => some []
  | '~' :: '0' :: cs => (token? cs).map ('~' :: ·)
  | '~' :: '1' :: cs => (token? cs).map ('/' :: ·)
  | c :: cs => if c = '~' ∨ c = '/' then none else (token? cs).map (c :: ·)

/-- The tokens of a pointer, if it is one. -/
def read? (pointer : String) : Option (List String) :=
  match pointer.toList with
  | [] => some []
  | '/' :: cs => (cs.splitOn '/').mapM fun token => (token? token).map String.ofList
  | _ => none

def escape (c : Char) : List Char :=
  if c = '~' then ['~', '0'] else if c = '/' then ['~', '1'] else [c]

def escaped (token : String) : List Char := token.toList.flatMap escape

/-- The pointer with these tokens. -/
def write (tokens : List String) : String := String.ofList (tokens.flatMap fun t => '/' :: escaped t)

/-- A token that stands for itself. -/
def Clean (token : String) : Prop := '/' ∉ token.toList ∧ '~' ∉ token.toList

instance (token : String) : Decidable (Clean token) := inferInstanceAs (Decidable (_ ∧ _))

theorem token?_plain {c : Char} (htilde : c ≠ '~') (hslash : c ≠ '/') (cs : List Char) :
    token? (c :: cs) = (token? cs).map (c :: ·) := by
  rw [token?]
  · rw [if_neg (not_or.2 ⟨htilde, hslash⟩)]
  · rintro cs h rfl
    exact htilde h
  · rintro cs h rfl
    exact htilde h

theorem token?_escaped (cs : List Char) : token? (cs.flatMap escape) = some cs := by
  induction cs with
  | nil => rfl
  | cons c cs ih =>
    rw [List.flatMap_cons, escape]
    split
    · rename_i htilde
      subst htilde
      exact congrArg (Option.map ('~' :: ·)) ih
    · rename_i htilde
      split
      · rename_i hslash
        subst hslash
        exact congrArg (Option.map ('/' :: ·)) ih
      · rename_i hslash
        rw [List.singleton_append, token?_plain htilde hslash, ih]
        rfl

theorem eq_of_token? {cs ds : List Char} (h : token? cs = some ds) : cs = ds.flatMap escape := by
  fun_induction token? cs generalizing ds with
  | case1 => cases h; rfl
  | case2 cs ih =>
    obtain ⟨es, hes, rfl⟩ := Option.map_eq_some_iff.1 h
    exact congrArg ('~' :: '0' :: ·) (ih hes)
  | case3 cs ih =>
    obtain ⟨es, hes, rfl⟩ := Option.map_eq_some_iff.1 h
    exact congrArg ('~' :: '1' :: ·) (ih hes)
  | case4 => cases h
  | case5 c cs _ _ hplain ih =>
    obtain ⟨es, hes, rfl⟩ := Option.map_eq_some_iff.1 h
    obtain ⟨htilde, hslash⟩ := not_or.1 hplain
    rw [List.flatMap_cons, escape, if_neg htilde, if_neg hslash, ← ih hes]
    rfl

theorem token?_eq_some_iff {cs : List Char} {token : String} :
    (token? cs).map String.ofList = some token ↔ cs = escaped token := by
  refine ⟨?_, ?_⟩
  · intro h
    obtain ⟨ds, hds, rfl⟩ := Option.map_eq_some_iff.1 h
    rw [escaped, String.toList_ofList]
    exact eq_of_token? hds
  · rintro rfl
    rw [escaped, token?_escaped, Option.map_some, String.ofList_toList]

theorem slash_notMem_escaped (token : String) : '/' ∉ escaped token := by
  intro h
  obtain ⟨c, -, hc⟩ := List.mem_flatMap.1 h
  unfold escape at hc
  split at hc
  · revert hc
    decide
  · split at hc
    · revert hc
      decide
    · rename_i hslash
      exact hslash (List.mem_singleton.1 hc).symm

/-- A list is traversed by a partial inverse of `g` iff it is an image under `g`. -/
theorem mapM_eq_some_iff {α β : Type} {f : α → Option β} {g : β → α} (h : ∀ a b, f a = some b ↔ a = g b)
    {as : List α} {bs : List β} : as.mapM f = some bs ↔ as = bs.map g := by
  induction as generalizing bs with
  | nil => cases bs <;> simp
  | cons a as ih =>
    cases bs with
    | nil => simp [List.mapM_cons, Option.bind_eq_some_iff]
    | cons b bs => simp [List.mapM_cons, Option.bind_eq_some_iff, h, ih]

theorem toList_write (tokens : List String) :
    (write tokens).toList = tokens.flatMap fun t => '/' :: escaped t :=
  String.toList_ofList

theorem flatMap_slash_cons (t : String) (ts : List String) :
    ((t :: ts).flatMap fun t => '/' :: escaped t) = '/' :: ['/'].intercalate ((t :: ts).map escaped) := by
  induction ts generalizing t with
  | nil => simp [List.intercalate]
  | cons u ts ih =>
    rw [List.flatMap_cons, ih u]
    simp [List.intercalate]

/-- Reading a pointer undoes writing it, and nothing else is read as these tokens. -/
theorem read?_eq_some_iff {pointer : String} {tokens : List String} :
    read? pointer = some tokens ↔ pointer = write tokens := by
  rw [← String.toList_inj, toList_write, read?]
  split
  · rename_i hempty
    rw [hempty]
    cases tokens <;> simp
  · rename_i cs hcs
    rw [hcs, mapM_eq_some_iff fun _ _ => token?_eq_some_iff]
    cases tokens with
    | nil => exact iff_of_false (List.splitOn_ne_nil '/' cs) (List.cons_ne_nil '/' cs)
    | cons t ts =>
      rw [flatMap_slash_cons, List.cons_inj_right]
      refine ⟨?_, ?_⟩
      · intro h
        rw [← h, List.intercalate_splitOn]
      · rintro rfl
        refine List.splitOn_intercalate '/' (fun l hl => ?_) (List.cons_ne_nil _ _)
        obtain ⟨token, -, rfl⟩ := List.mem_map.1 hl
        exact slash_notMem_escaped token
  · rename_i hnil hslash
    refine iff_of_false nofun fun h => ?_
    cases tokens with
    | nil => exact hnil h
    | cons t ts => exact hslash _ h

theorem read?_write (tokens : List String) : read? (write tokens) = some tokens := read?_eq_some_iff.2 rfl

/-! ### Tokens that need no escapes -/

/-- The tokens as they are, each behind a slash. -/
def raw (tokens : List String) : String := String.ofList (tokens.flatMap fun t => '/' :: t.toList)

theorem toList_raw (tokens : List String) : (raw tokens).toList = tokens.flatMap fun t => '/' :: t.toList :=
  String.toList_ofList

/-- The characters that are escaped. -/
def special (c : Char) : Bool := c = '~' ∨ c = '/'

theorem clean_iff {token : String} : Clean token ↔ token.toList.countP special = 0 := by
  rw [List.countP_eq_zero, Clean]
  refine ⟨?_, ?_⟩
  · rintro ⟨hslash, htilde⟩ c hc hspecial
    rcases of_decide_eq_true hspecial with rfl | rfl
    · exact htilde hc
    · exact hslash hc
  · intro h
    exact ⟨fun hslash => h '/' hslash rfl, fun htilde => h '~' htilde rfl⟩

theorem length_escape (c : Char) : (escape c).length = 1 + if special c then 1 else 0 := by
  unfold escape
  split
  · rename_i h
    subst h
    rfl
  · rename_i htilde
    split
    · rename_i h
      subst h
      rfl
    · rename_i hslash
      simp [special, htilde, hslash]

/-- Every escape takes one character more. -/
theorem length_escaped (token : String) :
    (escaped token).length = token.toList.length + token.toList.countP special := by
  rw [escaped]
  induction token.toList with
  | nil => rfl
  | cons c cs ih =>
    rw [List.flatMap_cons, List.length_append, length_escape, ih, List.length_cons, List.countP_cons]
    omega

theorem length_write (tokens : List String) : (write tokens).toList.length =
    (raw tokens).toList.length + (tokens.map fun t => t.toList.countP special).sum := by
  rw [toList_write, toList_raw]
  induction tokens with
  | nil => rfl
  | cons t ts ih =>
    simp only [List.flatMap_cons, List.length_append, List.length_cons, length_escaped, ih, List.map_cons,
      List.sum_cons]
    omega

theorem escaped_of_clean {token : String} (h : Clean token) : escaped token = token.toList := by
  have hsame : ∀ c ∈ token.toList, escape c = [c] := by
    intro c hc
    have htilde : c ≠ '~' := ne_of_mem_of_not_mem hc h.2
    have hslash : c ≠ '/' := ne_of_mem_of_not_mem hc h.1
    rw [escape, if_neg htilde, if_neg hslash]
  rw [escaped, List.flatMap_congr hsame, List.flatMap_singleton']

/-- Tokens may be written as they are iff none of them needs an escape. -/
theorem raw_eq_write_iff {tokens : List String} : raw tokens = write tokens ↔ ∀ t ∈ tokens, Clean t := by
  refine ⟨?_, ?_⟩
  · intro h t ht
    have hlength := length_write tokens
    rw [h] at hlength
    have hnone : (tokens.map fun t => t.toList.countP special).sum = 0 := by omega
    exact clean_iff.2 (List.sum_eq_zero_iff.1 hnone _ (List.mem_map_of_mem ht))
  · intro h
    rw [← String.toList_inj, toList_raw, toList_write]
    exact List.flatMap_congr fun t ht => by rw [escaped_of_clean (h t ht)]

end Pointer

/-! ### Where a pointer leads -/

/-- The number that is written so, with no needless zeros. -/
def index? (token : String) : Option Nat :=
  let n := Nat.ofDigitChars 10 token.toList 0
  if String.ofList (Nat.toDigits 10 n) = token then some n else none

def child? : Json → String → Option Json
  | .arr items, token => (index? token).bind fun i => items[i]?
  | .obj members, token => members.lookup token
  | _, _ => none

/-- The value that these tokens lead to. -/
def at? (j : Json) (tokens : List String) : Option Json := tokens.foldlM child? j

/-- The value that the pointer leads to, if it is one and leads anywhere. -/
def resolve? (j : Json) (pointer : String) : Option Json := (Pointer.read? pointer).bind j.at?

theorem index?_digits (n : Nat) : index? (String.ofList (Nat.toDigits 10 n)) = some n := by
  rw [index?, String.toList_ofList, Nat.ofDigitChars_ten_toDigits]
  exact if_pos rfl

theorem at?_cons (j : Json) (t : String) (ts : List String) :
    j.at? (t :: ts) = (j.child? t).bind fun k => k.at? ts := rfl

theorem child?_arr (items : List Json) (n : Nat) :
    (arr items).child? (String.ofList (Nat.toDigits 10 n)) = items[n]? := by
  rw [child?, index?_digits]
  rfl

theorem child?_ofMap {α : Type} (toJson : α → Json) (m : NameMap α) (name : String) :
    (ofMap (m.map toJson)).child? name = (m.get? name).map toJson := by
  show (m.entries.map fun e => (e.1, toJson e.2)).lookup name = (m.entries.lookup name).map toJson
  induction m.entries with
  | nil => rfl
  | cons e es ih =>
    rw [List.map_cons, List.lookup_cons, List.lookup_cons, ih]
    split <;> rfl

theorem resolve?_write (j : Json) (tokens : List String) :
    j.resolve? (Pointer.write tokens) = j.at? tokens := by
  rw [resolve?, Pointer.read?_write]
  rfl

end ObjectRuntime.Json
