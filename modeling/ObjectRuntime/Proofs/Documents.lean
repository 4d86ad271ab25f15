import ObjectRuntime.Proofs.Lexemes

/-! Documents as the writer leaves them. A node of a document spells a value when it reads as that value,
wherever it stands. The compact text of a value without doubles is read as a node that spells it, with
whatever follows left over, and there is always fuel enough. -/

namespace ObjectRuntime.Json

open Text (encode)

/-! ### What a node spells -/

mutual

inductive Node.Spells : Node → Json → Prop where
  | null {stop : Nat} : Node.Spells (.null stop) .null
  | bool {b : Bool} {stop : Nat} : Node.Spells (.bool b stop) (.bool b)
  | natural {l : Lexeme} {stop : Nat} {v : UInt64} {i : Int} (h : l.value? = some (.unsigned v))
    (hi : v.toNat = i) : Node.Spells (.number l stop) (.int i)
  | negative {l : Lexeme} {stop : Nat} {v : Int64} {i : Int} (h : l.value? = some (.negative v))
    (hi : v.toInt = i) (hneg : i < 0) : Node.Spells (.number l stop) (.int i)
  | string {s : String} {stop : Nat} : Node.Spells (.string (.ok s) stop) (.str s)
  | array {start : Nat} {items : Items} {js : List Json} (h : Items.Spells items js) :
    Node.Spells (.array start items) (.arr js)
  | object {start : Nat} {members : Members} {ms : List (String × Json)}
    (h : Members.Spells members ms) : Node.Spells (.object start members) (.obj ms)

inductive Items.Spells : Items → List Json → Prop where
  | close {stop : Nat} : Items.Spells (.close stop) []
  | cons {start : Nat} {head : Node} {tail : Items} {j : Json} {js : List Json}
    (h : Node.Spells head j) (ht : Items.Spells tail js) :
    Items.Spells (.cons start head tail) (j :: js)

inductive Members.Spells : Members → List (String × Json) → Prop where
  | close {stop : Nat} : Members.Spells (.close stop) []
  | cons {name : String} {stop : Nat} {value : Node} {tail : Members} {j : Json}
    {ms : List (String × Json)} (h : Node.Spells value j) (ht : Members.Spells tail ms) :
    Members.Spells (.cons (.ok name) stop value tail) ((name, j) :: ms)

end

/-- No doubles in it, and integers of 64 bits only. -/
inductive Plain : Json → Prop where
  | null : Plain .null
  | bool (b : Bool) : Plain (.bool b)
  | int {i : Int} (hlow : -0x8000000000000000 ≤ i) (hhigh : i < UInt64.size) : Plain (.int i)
  | str (s : String) : Plain (.str s)
  | arr {js : List Json} (h : ∀ j ∈ js, Plain j) : Plain (.arr js)
  | obj {ms : List (String × Json)} (h : ∀ m ∈ ms, Plain m.2) : Plain (.obj ms)

/-- Wherever the text of the value stands, it is read as a node that spells it and reading goes on
behind it. -/
def ReadsBack (j : Json) : Prop :=
  ∀ fuel offset rest, 2 * j.toBytes.length ≤ fuel → EndsNumber rest →
    ∃ n stop, readNode fuel ⟨offset, j.toBytes ++ rest⟩ = (n, .ok ⟨stop, rest⟩) ∧ n.Spells j

/-! ### The bytes of a value -/

/-- A number starts here. -/
def StartsNumber (b : UInt8) : Prop := b = 0x2D ∨ (digitOf? b).isSome

instance (b : UInt8) : Decidable (StartsNumber b) := inferInstanceAs (Decidable (_ ∨ _))

theorem StartsNumber.apart {b : UInt8} (h : StartsNumber b) :
    Input.isBlank b = false ∧ b ≠ 0x22 ∧ b ≠ 0x5D := by
  have hne {x : UInt8} (hx : ¬ StartsNumber x) : b ≠ x := by
    rintro rfl
    exact hx h
  refine ⟨?_, hne (by decide), hne (by decide)⟩
  by_contra hblank
  simp only [Input.isBlank, Bool.not_eq_false, Bool.or_eq_true, beq_iff_eq] at hblank
  rcases hblank with ((rfl | rfl) | rfl) | rfl <;> revert h <;> decide

theorem exists_integer_eq_cons (i : Int) : ∃ b bs, encode (integer i) = b :: bs ∧ StartsNumber b := by
  rw [encode_integer]
  split
  · exact ⟨_, _, rfl, Or.inl rfl⟩
  · obtain ⟨b, bs, heq, hdigit, -⟩ := exists_numeral_eq_cons i.natAbs
    exact ⟨b, bs, heq, Or.inr hdigit⟩

/-- A value starts with a byte that is neither blank nor closes a list. -/
theorem exists_toBytes_eq_cons {j : Json} (h : j.Plain) :
    ∃ b bs, j.toBytes = b :: bs ∧ Input.isBlank b = false ∧ b ≠ 0x5D := by
  cases h with
  | null => exact ⟨_, _, rfl, rfl, by decide⟩
  | bool b => cases b <;> exact ⟨_, _, rfl, rfl, by decide⟩
  | str s => exact ⟨_, _, rfl, rfl, by decide⟩
  | arr h => exact ⟨_, _, rfl, rfl, by decide⟩
  | obj h => exact ⟨_, _, rfl, rfl, by decide⟩
  | @int i hlow hhigh =>
    obtain ⟨b, bs, heq, hstarts⟩ := exists_integer_eq_cons i
    obtain ⟨hblank, -, hclose⟩ := hstarts.apart
    exact ⟨b, bs, heq, hblank, hclose⟩

theorem skipBlanks_of_head {offset : Nat} {b : UInt8} {bs : List UInt8} (h : Input.isBlank b = false) :
    Input.skipBlanks ⟨offset, b :: bs⟩ = ⟨offset, b :: bs⟩ := by
  simp only [Input.skipBlanks, List.takeWhile_cons, h]
  rfl

/-- The values of a list from the second one on. -/
def moreItems (js : List Json) : List UInt8 := js.flatMap fun j => 0x2C :: j.toBytes

/-- The name of a member and its value. -/
def memberBytes (m : String × Json) : List UInt8 := encode (quote m.1) ++ 0x3A :: m.2.toBytes

def moreMembers (ms : List (String × Json)) : List UInt8 := ms.flatMap fun m => 0x2C :: memberBytes m

theorem length_toBytes_lt_memberBytes (name : String) (j : Json) :
    j.toBytes.length < (memberBytes (name, j)).length := by
  simp only [memberBytes, List.length_append, List.length_cons]
  omega

theorem encode_append (cs ds : List Char) : encode (cs ++ ds) = encode cs ++ encode ds :=
  List.flatMap_append

theorem encode_compactItems (j : Json) (js : List Json) :
    encode (compactItems (j :: js)) = j.toBytes ++ moreItems js := by
  induction js generalizing j with
  | nil => rw [compactItems, moreItems, List.flatMap_nil, List.append_nil, toBytes]
  | cons k js ih =>
    rw [compactItems, encode_append, ← toBytes]
    · change j.toBytes ++ 0x2C :: encode (compactItems (k :: js)) = _
      rw [ih]
      rfl
    · nofun

theorem encode_compactMembers (m : String × Json) (ms : List (String × Json)) :
    encode (compactMembers (m :: ms)) = memberBytes m ++ moreMembers ms := by
  induction ms generalizing m with
  | nil =>
    rw [compactMembers, encode_append, moreMembers, List.flatMap_nil, List.append_nil]
    rfl
  | cons m' ms ih =>
    rw [compactMembers, List.append_assoc, encode_append, memberBytes, List.append_assoc]
    · change encode (quote m.1) ++ 0x3A :: encode (compact m.2 ++ ',' :: compactMembers (m' :: ms)) = _
      rw [encode_append]
      change encode (quote m.1) ++ 0x3A :: (m.2.toBytes ++ 0x2C :: encode (compactMembers (m' :: ms))) = _
      rw [ih]
      rfl
    · nofun

/-! ### Lists -/

theorem endsNumber_cons {b : UInt8} {bs : List UInt8} (h : b = 0x2C ∨ b = 0x5D ∨ b = 0x7D) :
    EndsNumber (b :: bs) := by
  intro c hc
  rw [List.head?_cons, Option.mem_some_iff] at hc
  subst hc
  rcases h with rfl | rfl | rfl <;> decide

theorem endsNumber_moreItems (js : List Json) (rest : List UInt8) :
    EndsNumber (moreItems js ++ 0x5D :: rest) := by
  cases js with
  | nil => exact endsNumber_cons (Or.inr (Or.inl rfl))
  | cons j js => exact endsNumber_cons (Or.inl rfl)

theorem separateItems_comma {offset : Nat} {b : UInt8} {bs : List UInt8} (hblank : Input.isBlank b = false)
    (hclose : b ≠ 0x5D) :
    separateItems false ⟨offset, 0x2C :: b :: bs⟩ = .ok (some ⟨offset + 1, b :: bs⟩) := by
  have hskip : (Input.drop ⟨offset, 0x2C :: b :: bs⟩ 1).skipBlanks = ⟨offset + 1, b :: bs⟩ :=
    skipBlanks_of_head hblank
  simp [separateItems, hskip, hclose]

theorem separateItems_opening {offset : Nat} {b : UInt8} {bs : List UInt8} (hclose : b ≠ 0x5D) :
    separateItems true ⟨offset, b :: bs⟩ = .ok (some ⟨offset, b :: bs⟩) := by
  simp [separateItems, hclose]

theorem readItems_close (fuel offset : Nat) (opening : Bool) (rest : List UInt8) :
    readItems (fuel + 1) opening ⟨offset, 0x5D :: rest⟩ = (.close (offset + 1), .ok ⟨offset + 1, rest⟩) := by
  rw [readItems, skipBlanks_of_head rfl]
  rfl

/-- One item is read, and then the rest of them. -/
theorem readItems_step {fuel : Nat} (offset : Nat) {opening : Bool} {i : Input} {j : Json} {js : List Json}
    {more rest : List UInt8}
    (hseparate : separateItems opening i.skipBlanks = .ok (some ⟨offset, j.toBytes ++ more⟩))
    (hback : j.ReadsBack) (hfuel : 2 * j.toBytes.length ≤ fuel) (hmore : EndsNumber more)
    (htail : ∀ offset, ∃ tail stop, readItems fuel false ⟨offset, more⟩ = (tail, .ok ⟨stop, rest⟩) ∧
      tail.Spells js) :
    ∃ items stop, readItems (fuel + 1) opening i = (items, .ok ⟨stop, rest⟩) ∧ items.Spells (j :: js) := by
  obtain ⟨head, k, hhead, hspells⟩ := hback fuel offset more hfuel hmore
  obtain ⟨tail, stop, htail, hspells'⟩ := htail k
  refine ⟨.cons offset head tail, stop, ?_, .cons hspells hspells'⟩
  simp only [readItems, hseparate, hhead, htail]

theorem readItems_more {js : List Json} (hplain : ∀ j ∈ js, j.Plain) (hback : ∀ j ∈ js, j.ReadsBack)
    {fuel : Nat} (offset : Nat) (rest : List UInt8) (hfuel : 2 * (moreItems js).length < fuel) :
    ∃ items stop, readItems fuel false ⟨offset, moreItems js ++ 0x5D :: rest⟩ = (items, .ok ⟨stop, rest⟩) ∧
      items.Spells js := by
  induction js generalizing fuel offset with
  | nil =>
    cases fuel with
    | zero => omega
    | succ fuel => exact ⟨_, _, readItems_close fuel offset false rest, .close⟩
  | cons j js ih =>
    obtain ⟨b, bs, hbytes, hblank, hclose⟩ := exists_toBytes_eq_cons (hplain j List.mem_cons_self)
    have htext : moreItems (j :: js) = 0x2C :: (j.toBytes ++ moreItems js) := rfl
    rw [htext, List.length_cons, List.length_append] at hfuel
    cases fuel with
    | zero => omega
    | succ fuel =>
      refine readItems_step (offset + 1) ?_ (hback j List.mem_cons_self) (by omega)
        (endsNumber_moreItems js rest) fun offset =>
          ih (fun x hx => hplain x (List.mem_cons_of_mem j hx))
            (fun x hx => hback x (List.mem_cons_of_mem j hx)) offset (by omega)
      rw [htext, List.cons_append, skipBlanks_of_head rfl, List.append_assoc, hbytes]
      exact separateItems_comma hblank hclose

/-- The items of a list from its opening bracket on. -/
theorem readItems_compactItems {js : List Json} (hplain : ∀ j ∈ js, j.Plain)
    (hback : ∀ j ∈ js, j.ReadsBack) (fuel offset : Nat) (rest : List UInt8)
    (hfuel : 2 * (encode (compactItems js)).length < fuel) :
    ∃ items stop, readItems fuel true ⟨offset, encode (compactItems js) ++ 0x5D :: rest⟩ =
      (items, .ok ⟨stop, rest⟩) ∧ items.Spells js := by
  cases fuel with
  | zero => omega
  | succ fuel =>
    cases js with
    | nil => exact ⟨_, _, readItems_close fuel offset true rest, .close⟩
    | cons j js =>
      obtain ⟨b, bs, hbytes, hblank, hclose⟩ := exists_toBytes_eq_cons (hplain j List.mem_cons_self)
      have hpos : 0 < j.toBytes.length := by
        rw [hbytes]
        exact Nat.succ_pos _
      rw [encode_compactItems, List.length_append] at hfuel
      rw [encode_compactItems, List.append_assoc]
      refine readItems_step offset ?_ (hback j List.mem_cons_self) (by omega)
        (endsNumber_moreItems js rest) fun offset =>
          readItems_more (fun x hx => hplain x (List.mem_cons_of_mem j hx))
            (fun x hx => hback x (List.mem_cons_of_mem j hx)) offset rest (by omega)
      rw [hbytes, List.cons_append, skipBlanks_of_head hblank]
      exact separateItems_opening hclose

/-! ### Objects -/

theorem endsNumber_moreMembers (ms : List (String × Json)) (rest : List UInt8) :
    EndsNumber (moreMembers ms ++ 0x7D :: rest) := by
  cases ms with
  | nil => exact endsNumber_cons (Or.inr (Or.inr rfl))
  | cons m ms => exact endsNumber_cons (Or.inl rfl)

theorem readMembers_close (fuel offset : Nat) (opening : Bool) (rest : List UInt8) :
    readMembers (fuel + 1) opening ⟨offset, 0x7D :: rest⟩ =
      (.close (offset + 1), .ok ⟨offset + 1, rest⟩) := by
  rw [readMembers, skipBlanks_of_head rfl]
  rfl

/-- One member is read, and then the rest of them. -/
theorem readMembers_step {fuel : Nat} (offset : Nat) {opening : Bool} {i : Input} {name : String}
    {j : Json} {ms : List (String × Json)} {more rest : List UInt8}
    (hseparate : separateMembers opening i.skipBlanks = .ok (some ⟨offset, memberBytes (name, j) ++ more⟩))
    (hback : j.ReadsBack) (hfuel : 2 * j.toBytes.length ≤ fuel) (hmore : EndsNumber more)
    (htail : ∀ offset, ∃ tail stop, readMembers fuel false ⟨offset, more⟩ = (tail, .ok ⟨stop, rest⟩) ∧
      tail.Spells ms) :
    ∃ members stop, readMembers (fuel + 1) opening i = (members, .ok ⟨stop, rest⟩) ∧
      members.Spells ((name, j) :: ms) := by
  have htext : memberBytes (name, j) ++ more = encode (quote name) ++ 0x3A :: (j.toBytes ++ more) := by
    rw [memberBytes, List.append_assoc, List.cons_append]
  obtain ⟨k, hkey⟩ := lexString_quote name offset (0x3A :: (j.toBytes ++ more))
  have hskip : Input.skipBlanks ⟨k, 0x3A :: (j.toBytes ++ more)⟩ = ⟨k, 0x3A :: (j.toBytes ++ more)⟩ :=
    skipBlanks_of_head rfl
  have hcolon : expectColon ⟨k, 0x3A :: (j.toBytes ++ more)⟩ = .ok ⟨k + 1, j.toBytes ++ more⟩ := rfl
  obtain ⟨value, n, hvalue, hspells⟩ := hback fuel (k + 1) more hfuel hmore
  obtain ⟨tail, stop, htail, hspells'⟩ := htail n
  refine ⟨.cons (.ok name) (refusal ⟨k, 0x3A :: (j.toBytes ++ more)⟩) value tail, stop, ?_,
    .cons hspells hspells'⟩
  rw [htext] at hseparate
  simp only [readMembers, hseparate, hkey, hskip, hcolon, hvalue, htail]

theorem readMembers_more {ms : List (String × Json)} (hback : ∀ m ∈ ms, m.2.ReadsBack) {fuel : Nat}
    (offset : Nat) (rest : List UInt8) (hfuel : 2 * (moreMembers ms).length < fuel) :
    ∃ members stop, readMembers fuel false ⟨offset, moreMembers ms ++ 0x7D :: rest⟩ =
      (members, .ok ⟨stop, rest⟩) ∧ members.Spells ms := by
  induction ms generalizing fuel offset with
  | nil =>
    cases fuel with
    | zero => omega
    | succ fuel => exact ⟨_, _, readMembers_close fuel offset false rest, .close⟩
  | cons m ms ih =>
    obtain ⟨name, j⟩ := m
    have htext : moreMembers ((name, j) :: ms) = 0x2C :: (memberBytes (name, j) ++ moreMembers ms) := rfl
    have hlength := length_toBytes_lt_memberBytes name j
    rw [htext, List.length_cons, List.length_append] at hfuel
    cases fuel with
    | zero => omega
    | succ fuel =>
      refine readMembers_step (offset + 1) ?_ (hback _ List.mem_cons_self) (by omega)
        (endsNumber_moreMembers ms rest) fun offset =>
          ih (fun x hx => hback x (List.mem_cons_of_mem _ hx)) offset (by omega)
      rw [htext, List.cons_append, skipBlanks_of_head rfl, List.append_assoc]
      rfl

/-- The members of an object from its opening brace on. -/
theorem readMembers_compactMembers {ms : List (String × Json)} (hback : ∀ m ∈ ms, m.2.ReadsBack)
    (fuel offset : Nat) (rest : List UInt8)
    (hfuel : 2 * (encode (compactMembers ms)).length < fuel) :
    ∃ members stop, readMembers fuel true ⟨offset, encode (compactMembers ms) ++ 0x7D :: rest⟩ =
      (members, .ok ⟨stop, rest⟩) ∧ members.Spells ms := by
  cases fuel with
  | zero => omega
  | succ fuel =>
    cases ms with
    | nil => exact ⟨_, _, readMembers_close fuel offset true rest, .close⟩
    | cons m ms =>
      obtain ⟨name, j⟩ := m
      have hlength := length_toBytes_lt_memberBytes name j
      rw [encode_compactMembers, List.length_append] at hfuel
      rw [encode_compactMembers, List.append_assoc]
      exact readMembers_step offset rfl (hback _ List.mem_cons_self) (by omega)
        (endsNumber_moreMembers ms rest) fun offset =>
          readMembers_more (fun x hx => hback x (List.mem_cons_of_mem _ hx)) offset rest (by omega)

/-! ### Values -/

section Nodes

variable {fuel offset : Nat} {bs : List UInt8}

theorem readNode_string :
    readNode (fuel + 1) ⟨offset, 0x22 :: bs⟩ = readString ⟨offset, 0x22 :: bs⟩ := by
  rw [readNode, skipBlanks_of_head rfl]
  rfl

theorem readNode_number {b : UInt8} (h : StartsNumber b) :
    readNode (fuel + 1) ⟨offset, b :: bs⟩ = readNumber ⟨offset, b :: bs⟩ := by
  obtain ⟨hblank, hquote, -⟩ := h.apart
  rw [readNode, skipBlanks_of_head hblank]
  simp only [if_neg hquote]
  exact if_pos h

theorem readNode_array {items : Items} {next : Except Breach Input}
    (h : readItems fuel true ⟨offset + 1, bs⟩ = (items, next)) :
    readNode (fuel + 1) ⟨offset, 0x5B :: bs⟩ = (.array offset items, next) := by
  have hitems : readItems fuel true (Input.drop ⟨offset, 0x5B :: bs⟩ 1) = (items, next) := h
  rw [readNode, skipBlanks_of_head rfl]
  simp only [hitems]
  rfl

theorem readNode_object {members : Members} {next : Except Breach Input}
    (h : readMembers fuel true ⟨offset + 1, bs⟩ = (members, next)) :
    readNode (fuel + 1) ⟨offset, 0x7B :: bs⟩ = (.object offset members, next) := by
  have hmembers : readMembers fuel true (Input.drop ⟨offset, 0x7B :: bs⟩ 1) = (members, next) := h
  rw [readNode, skipBlanks_of_head rfl]
  simp only [hmembers]
  rfl

end Nodes

theorem toBytes_arr (js : List Json) : (arr js).toBytes = 0x5B :: (encode (compactItems js) ++ [0x5D]) := by
  rw [toBytes, compact, encode_append]
  rfl

theorem toBytes_obj (ms : List (String × Json)) :
    (obj ms).toBytes = 0x7B :: (encode (compactMembers ms) ++ [0x7D]) := by
  rw [toBytes, compact, encode_append]
  rfl

/-- A value has at least one byte, so there is some fuel. -/
theorem ReadsBack.of_succ {j : Json} (hplain : j.Plain)
    (h : ∀ fuel offset rest, 2 * j.toBytes.length ≤ fuel + 1 → EndsNumber rest →
      ∃ n stop, readNode (fuel + 1) ⟨offset, j.toBytes ++ rest⟩ = (n, .ok ⟨stop, rest⟩) ∧ n.Spells j) :
    j.ReadsBack := by
  intro fuel offset rest hfuel hrest
  obtain ⟨b, bs, hbytes, -⟩ := exists_toBytes_eq_cons hplain
  cases fuel with
  | zero => simp [hbytes] at hfuel
  | succ fuel => exact h fuel offset rest hfuel hrest

theorem readsBack_int {i : Int} (hlow : -0x8000000000000000 ≤ i) (hhigh : i < UInt64.size) :
    (int i).ReadsBack := by
  refine .of_succ (.int hlow hhigh) fun fuel offset rest hfuel hrest => ?_
  obtain ⟨stop, hlex⟩ := lexNumber_integer offset i hrest
  obtain ⟨b, bs, hbytes, hstarts⟩ := exists_integer_eq_cons i
  refine ⟨.number (lexemeOf i) stop, stop, ?_, ?_⟩
  · rw [hbytes, List.cons_append] at hlex
    rw [toBytes, compact, hbytes, List.cons_append, readNode_number hstarts, readNumber, hlex]
  · by_cases hneg : i < 0
    · refine .negative (value?_negative hneg hlow) ?_ hneg
      exact Int64.toInt_ofInt_of_le hlow (Int.lt_trans hneg (by decide))
    · obtain ⟨n, rfl⟩ := Int.eq_ofNat_of_zero_le (Int.not_lt.1 hneg)
      have hsize : n < UInt64.size := Int.ofNat_lt.1 hhigh
      refine .natural (value?_natural hsize) ?_
      exact congrArg Int.ofNat (UInt64.toNat_ofNat_of_lt' hsize)

/-- The compact text of a plain value is read back, whatever follows it. -/
theorem Plain.readsBack {j : Json} (h : j.Plain) : j.ReadsBack := by
  induction h with
  | null => exact .of_succ .null fun fuel offset rest hfuel hrest => ⟨_, _, rfl, .null⟩
  | bool b =>
    refine .of_succ (.bool b) fun fuel offset rest hfuel hrest => ?_
    cases b <;> exact ⟨_, _, rfl, .bool⟩
  | int hlow hhigh => exact readsBack_int hlow hhigh
  | str s =>
    refine .of_succ (.str s) fun fuel offset rest hfuel hrest => ?_
    obtain ⟨stop, hlex⟩ := lexString_quote s offset rest
    have hread : readString ⟨offset, encode (quote s) ++ rest⟩ = (.string (.ok s) stop, .ok ⟨stop, rest⟩) := by
      rw [readString, hlex]
    exact ⟨_, _, readNode_string.trans hread, .string⟩
  | arr hplain ih =>
    refine .of_succ (.arr hplain) fun fuel offset rest hfuel hrest => ?_
    simp only [toBytes_arr, List.length_cons, List.length_append] at hfuel
    obtain ⟨items, stop, hitems, hspells⟩ :=
      readItems_compactItems hplain ih fuel (offset + 1) rest (by omega)
    refine ⟨.array offset items, stop, ?_, .array hspells⟩
    rw [toBytes_arr, List.cons_append, List.append_assoc]
    exact readNode_array hitems
  | obj hplain ih =>
    refine .of_succ (.obj hplain) fun fuel offset rest hfuel hrest => ?_
    simp only [toBytes_obj, List.length_cons, List.length_append] at hfuel
    obtain ⟨members, stop, hmembers, hspells⟩ :=
      readMembers_compactMembers ih fuel (offset + 1) rest (by omega)
    refine ⟨.object offset members, stop, ?_, .object hspells⟩
    rw [toBytes_obj, List.cons_append, List.append_assoc]
    exact readNode_object hmembers

/-- The document of a plain value is that value and nothing more. -/
theorem ofBytes_toBytes_plain {j : Json} (h : j.Plain) :
    ∃ n, Document.ofBytes j.toBytes = ⟨n, none⟩ ∧ n.Spells j := by
  obtain ⟨n, stop, hread, hspells⟩ :=
    h.readsBack (2 * j.toBytes.length + 2) 0 [] (Nat.le_add_right _ _) nofun
  rw [List.append_nil] at hread
  refine ⟨n, ?_, hspells⟩
  rw [Document.ofBytes, Input.ofBytes, hread]
  rfl

end ObjectRuntime.Json
