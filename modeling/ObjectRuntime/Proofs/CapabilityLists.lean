import ObjectRuntime.Capability
import ObjectRuntime.Proofs.Words

/-! Capability lists. A text that is the name of a profile stands for the profile; any other is cut at its
commas and read word by word, up to the first word that names no capability. What is read is the set of those
named, so it depends on nothing but which words there are. -/

namespace ObjectRuntime

/-- What a name is found as is the one thing of that name. -/
theorem find?_name_eq_some_iff {α : Type} {all : List α} {name : α → String} (hall : ∀ a, a ∈ all)
    (hinj : ∀ a b, name a = name b → a = b) {s : String} {a : α} :
    all.find? (fun b => name b = s) = some a ↔ name a = s := by
  have hfound : ∀ b, all.find? (fun b => name b = s) = some b → name b = s := by
    intro b hb
    simpa using List.find?_some hb
  refine ⟨hfound a, fun h => ?_⟩
  have hsome : (all.find? fun b => name b = s).isSome :=
    List.find?_isSome.2 ⟨a, hall a, decide_eq_true h⟩
  obtain ⟨b, hb⟩ := Option.isSome_iff_exists.1 hsome
  rw [hb, hinj b a ((hfound b hb).trans h.symm)]

theorem Profile.ofName?_eq_some_iff {s : String} {p : Profile} : ofName? s = some p ↔ p.name = s := by
  refine find?_name_eq_some_iff (fun p => ?_) fun p q => ?_
  · cases p <;> decide
  · cases p <;> cases q <;> decide

theorem Profile.name_ne_empty (p : Profile) : p.name ≠ "" := by
  cases p <;> decide

namespace Capability

theorem mem_all (c : Capability) : c ∈ all := by
  cases c <;> decide

theorem name_ne_empty (c : Capability) : c.name ≠ "" := by
  cases c <;> decide

theorem name_injective {c d : Capability} (h : c.name = d.name) : c = d := by
  revert h
  cases c <;> cases d <;> decide

theorem ofName?_eq_some_iff {s : String} {c : Capability} : ofName? s = some c ↔ c.name = s :=
  find?_name_eq_some_iff mem_all fun _ _ => name_injective

theorem name_ne_profile (c : Capability) (p : Profile) : c.name ≠ p.name := by
  cases c <;> cases p <;> decide

/-- The name of some capability. -/
def Named (w : String) : Prop := ∃ c : Capability, c.name = w

theorem not_named_iff {w : String} : ¬ Named w ↔ ofName? w = none := by
  simp only [Named, ← ofName?_eq_some_iff, Option.eq_none_iff_forall_ne_some, not_exists, ne_eq]

end Capability

namespace CapabilitySet

variable {s t : CapabilitySet} {c d : Capability} {cs : List Capability}

/-! ### Sets -/

theorem has_none (c : Capability) : ¬ none.has c := by
  cases c <;> decide

theorem has_insert : (s.insert c).has d ↔ s.has d ∨ d = c := by
  cases c <;> cases d <;> simp [insert, has]

theorem ext_has (h : ∀ c, s.has c ↔ t.has c) : s = t := by
  have hfield (c : Capability) : s.has c = t.has c := Bool.eq_iff_iff.2 (h c)
  cases s
  cases t
  rw [mk.injEq]
  exact ⟨hfield .mapping, hfield .ioError, hfield .eofError, hfield .osError⟩

theorem has_foldl_insert : (cs.foldl insert s).has d ↔ s.has d ∨ d ∈ cs := by
  induction cs generalizing s with
  | nil => simp
  | cons c cs ih => rw [List.foldl_cons, ih, has_insert, List.mem_cons, or_assoc]

theorem has_ofList : (ofList cs).has d ↔ d ∈ cs := by
  rw [ofList, has_foldl_insert, or_iff_right (has_none d)]

/-- The members come once each and in the order of declaration. -/
theorem toList_sublist (s : CapabilitySet) : s.toList.Sublist Capability.all := List.filter_sublist

theorem nodup_toList (s : CapabilitySet) : s.toList.Nodup := by
  refine List.Nodup.sublist s.toList_sublist ?_
  decide

theorem mem_toList_iff : c ∈ s.toList ↔ s.has c := by
  rw [toList, List.mem_filter, and_iff_right (Capability.mem_all c)]

/-! ### Reading words -/

theorem insertNamed_name (s : CapabilitySet) (c : Capability) : s.insertNamed c.name = .ok (s.insert c) := by
  rw [insertNamed, Capability.ofName?_eq_some_iff.2 rfl]

theorem foldlM_insertNamed_names (cs : List Capability) (s : CapabilitySet) :
    (cs.map Capability.name).foldlM insertNamed s = .ok (cs.foldl insert s) := by
  induction cs generalizing s with
  | nil => rfl
  | cons c cs ih =>
    rw [List.map_cons, List.foldlM_cons, insertNamed_name]
    exact ih (s.insert c)

theorem foldlM_insertNamed_unknown {w : String} (hw : ¬ Capability.Named w) (after : List String) :
    (cs.map Capability.name ++ w :: after).foldlM insertNamed s = .error ⟨w⟩ := by
  rw [List.foldlM_append, foldlM_insertNamed_names]
  change ((cs.foldl insert s).insertNamed w >>= fun s => after.foldlM insertNamed s) = _
  rw [insertNamed, Capability.not_named_iff.1 hw]
  rfl

theorem exists_names {ws : List String} (h : ∀ w ∈ ws, Capability.Named w) :
    ∃ cs : List Capability, ws = cs.map Capability.name := by
  induction ws with
  | nil => exact ⟨[], rfl⟩
  | cons w ws ih =>
    obtain ⟨⟨c, rfl⟩, hws⟩ := List.forall_mem_cons.1 h
    obtain ⟨cs, rfl⟩ := ih hws
    exact ⟨c :: cs, rfl⟩

/-- Words all name capabilities, or there is a first one that does not. -/
theorem named_or_first_unknown (ws : List String) : (∀ w ∈ ws, Capability.Named w) ∨
    ∃ before w after, ws = before ++ w :: after ∧ (∀ v ∈ before, Capability.Named v) ∧
      ¬ Capability.Named w := by
  induction ws with
  | nil => exact Or.inl nofun
  | cons w ws ih =>
    by_cases hw : Capability.Named w
    · rcases ih with hall | ⟨before, v, after, rfl, hbefore, hv⟩
      · exact Or.inl (List.forall_mem_cons.2 ⟨hw, hall⟩)
      · exact Or.inr ⟨w :: before, v, after, rfl, List.forall_mem_cons.2 ⟨hw, hbefore⟩, hv⟩
    · exact Or.inr ⟨[], w, ws, rfl, nofun, hw⟩

theorem foldlM_insertNamed_eq_ok_iff {ws : List String} {caps : CapabilitySet} :
    ws.foldlM insertNamed none = .ok caps ↔
      (∀ w ∈ ws, Capability.Named w) ∧ ∀ c, caps.has c ↔ c.name ∈ ws := by
  have hread (cs : List Capability) (c : Capability) :
      (ofList cs).has c ↔ c.name ∈ cs.map Capability.name := by
    rw [has_ofList, List.mem_map]
    refine ⟨fun hc => ⟨c, hc, rfl⟩, ?_⟩
    rintro ⟨d, hd, hname⟩
    rwa [← Capability.name_injective hname]
  rcases named_or_first_unknown ws with hall | ⟨before, w, after, rfl, hbefore, hw⟩
  · obtain ⟨cs, rfl⟩ := exists_names hall
    rw [foldlM_insertNamed_names, ← ofList, Except.ok.injEq]
    refine ⟨?_, fun h => ext_has fun c => (hread cs c).trans (h.2 c).symm⟩
    rintro rfl
    exact ⟨hall, hread cs⟩
  · obtain ⟨cs, rfl⟩ := exists_names hbefore
    rw [foldlM_insertNamed_unknown hw]
    refine iff_of_false nofun fun h => hw (h.1 w ?_)
    exact List.mem_append_right _ List.mem_cons_self

theorem foldlM_insertNamed_eq_error_iff {ws : List String} {e : UnknownCapability} :
    ws.foldlM insertNamed none = .error e ↔ ∃ before after, ws = before ++ e.value :: after ∧
      (∀ v ∈ before, Capability.Named v) ∧ ¬ Capability.Named e.value := by
  refine ⟨fun h => ?_, ?_⟩
  · rcases named_or_first_unknown ws with hall | ⟨before, w, after, rfl, hbefore, hw⟩
    · obtain ⟨cs, rfl⟩ := exists_names hall
      rw [foldlM_insertNamed_names] at h
      cases h
    · obtain ⟨cs, rfl⟩ := exists_names hbefore
      rw [foldlM_insertNamed_unknown hw] at h
      cases h
      exact ⟨_, after, rfl, hbefore, hw⟩
  · rintro ⟨before, after, rfl, hbefore, hw⟩
    obtain ⟨cs, rfl⟩ := exists_names hbefore
    exact foldlM_insertNamed_unknown hw after

/-! ### Reading a text -/

/-- What stands in a piece of a list. -/
def wordOf (piece : List Char) : String := String.ofList (Text.trim piece)

/-- The words of a list that is cut into these pieces. -/
def wordsOf (ps : List (List Char)) : List String := (ps.map wordOf).filter (· ≠ "")

variable {ps : List (List Char)} {p : Profile} {text : String}

theorem wordOf_eq_iff {piece : List Char} {w : String} : wordOf piece = w ↔ Text.trim piece = w.toList := by
  rw [wordOf, ← String.toList_inj, String.toList_ofList]

theorem wordsOf_cons_of_blank {q : List Char} (h : wordOf q = "") : wordsOf (q :: ps) = wordsOf ps := by
  simp [wordsOf, h]

theorem wordsOf_cons_of_ne {q : List Char} (h : wordOf q ≠ "") :
    wordsOf (q :: ps) = wordOf q :: wordsOf ps := by
  simp [wordsOf, h]

theorem listed_eq_wordsOf {cs : List Char} (h : Text.Cut ',' cs ps) : listed cs = wordsOf ps := by
  rw [listed, wordsOf, ← h.eq_pieces, List.filter_map, List.filter_map, List.map_map]
  refine congrArg (List.map wordOf) (List.filter_congr fun q _ => ?_)
  rw [Bool.eq_iff_iff]
  simp [wordOf_eq_iff]

theorem comma_not_blank : ¬ Text.isBlank ',' := by
  decide

theorem listed_trim (cs : List Char) : listed (Text.trim cs) = listed cs :=
  congrArg (List.map String.ofList) (Text.words_trim comma_not_blank cs)

theorem parse_eq (text : String) : parse text =
    match Profile.ofName? (wordOf text.toList) with
    | some p => .ok p.capabilities
    | Option.none => (listed text.toList).foldlM insertNamed none := by
  have htrimmed : parse text = match Profile.ofName? (wordOf text.toList) with
      | some p => .ok p.capabilities
      | Option.none => (listed (Text.trim text.toList)).foldlM insertNamed none := rfl
  rw [htrimmed, listed_trim]

theorem parse_profile (h : wordOf text.toList = p.name) : parse text = .ok p.capabilities := by
  rw [parse_eq, Profile.ofName?_eq_some_iff.2 h.symm]

theorem parse_list (h : ∀ p : Profile, wordOf text.toList ≠ p.name) (hcut : Text.Cut ',' text.toList ps) :
    parse text = (wordsOf ps).foldlM insertNamed none := by
  have hnone : Profile.ofName? (wordOf text.toList) = Option.none :=
    Option.eq_none_iff_forall_ne_some.2 fun p hp => h p (Profile.ofName?_eq_some_iff.1 hp).symm
  rw [parse_eq, hnone, listed_eq_wordsOf hcut]

/-- The name of a profile is one piece. -/
theorem pieces_of_profile (h : wordOf text.toList = p.name) : Text.pieces ',' text.toList = [text.toList] := by
  refine Text.pieces_of_notMem (Text.notMem_of_trim comma_not_blank ?_)
  rw [wordOf_eq_iff.1 h]
  cases p <;> decide

/-! ### Lists of names -/

/-- The pieces are the names of these capabilities with blanks around them, and any blank pieces. -/
inductive Spells : List (List Char) → List Capability → Prop where
  | nil : Spells [] []
  | blank {blank : List Char} {ps : List (List Char)} {cs : List Capability} (hblank : Text.Blank blank)
    (h : Spells ps cs) : Spells (blank :: ps) cs
  | name {l r : List Char} {ps : List (List Char)} {cs : List Capability} (c : Capability)
    (hl : Text.Blank l) (hr : Text.Blank r) (h : Spells ps cs) :
    Spells ((l ++ c.name.toList ++ r) :: ps) (c :: cs)

theorem trim_name (c : Capability) : Text.trim c.name.toList = c.name.toList := by
  cases c <;> decide

theorem Spells.wordsOf_eq (h : Spells ps cs) : wordsOf ps = cs.map Capability.name := by
  induction h with
  | nil => rfl
  | @blank blank ps cs hblank _ ih =>
    rwa [wordsOf_cons_of_blank (wordOf_eq_iff.2 (Text.trim_of_blank hblank))]
  | @name l r ps cs c hl hr _ ih =>
    have hword : wordOf (l ++ c.name.toList ++ r) = c.name := by
      rw [wordOf_eq_iff, Text.trim_append_right hr, Text.trim_append_left hl, trim_name]
    have hne : wordOf (l ++ c.name.toList ++ r) ≠ "" := hword.trans_ne c.name_ne_empty
    rw [wordsOf_cons_of_ne hne, hword, ih, List.map_cons]

theorem Spells.comma_notMem (h : Spells ps cs) : ∀ q ∈ ps, ',' ∉ q := by
  induction h with
  | nil => exact nofun
  | blank hblank _ ih => exact List.forall_mem_cons.2 ⟨hblank.notMem comma_not_blank, ih⟩
  | name c hl hr _ ih =>
    refine List.forall_mem_cons.2 ⟨?_, ih⟩
    rw [List.mem_append, List.mem_append, not_or, not_or]
    refine ⟨⟨hl.notMem comma_not_blank, ?_⟩, hr.notMem comma_not_blank⟩
    cases c <;> decide

/-- The text is a list of these names, in this order, with blanks and blank pieces anywhere. -/
def Spelled (text : String) (cs : List Capability) : Prop :=
  ∃ ps, Spells ps cs ∧ text.toList = [','].intercalate ps

theorem parse_of_spelled (h : Spelled text cs) : parse text = .ok (ofList cs) := by
  -- no pieces at all make the same text as one blank piece
  obtain ⟨ps, hspells, hcut⟩ : ∃ ps, Spells ps cs ∧ Text.Cut ',' text.toList ps := by
    obtain ⟨ps, hspells, htext⟩ := h
    cases ps with
    | nil => exact ⟨[[]], .blank nofun hspells, ⟨List.cons_ne_nil _ _, by simp, htext.symm⟩⟩
    | cons p ps => exact ⟨p :: ps, hspells, ⟨List.cons_ne_nil _ _, hspells.comma_notMem, htext.symm⟩⟩
  have hprofile : ∀ p : Profile, wordOf text.toList ≠ p.name := by
    intro p hp
    have hwords := hspells.wordsOf_eq
    rw [hcut.eq_pieces, pieces_of_profile hp, wordsOf_cons_of_ne (hp ▸ p.name_ne_empty), hp] at hwords
    obtain ⟨c, -, hc⟩ := List.mem_map.1 (hwords ▸ List.mem_cons_self)
    exact c.name_ne_profile p hc
  rw [parse_list hprofile hcut, hspells.wordsOf_eq, foldlM_insertNamed_names, ofList]

/-- A list with a profile's name among its pieces is no list of capabilities. -/
theorem exists_parse_error (hcut : Text.Cut ',' text.toList ps) (hlong : 2 ≤ ps.length)
    (hp : p.name ∈ ps.map wordOf) : ∃ e, parse text = .error e := by
  have hprofile : ∀ p : Profile, wordOf text.toList ≠ p.name := by
    intro p hp
    rw [hcut.eq_pieces, pieces_of_profile hp, List.length_singleton] at hlong
    exact absurd hlong (by decide)
  rw [parse_list hprofile hcut]
  cases hread : (wordsOf ps).foldlM insertNamed none with
  | error e => exact ⟨e, rfl⟩
  | ok caps =>
    obtain ⟨c, hc⟩ := (foldlM_insertNamed_eq_ok_iff.1 hread).1 p.name
      (List.mem_filter.2 ⟨hp, decide_eq_true p.name_ne_empty⟩)
    exact absurd hc (c.name_ne_profile p)

/-- A text that is the name of a profile is read as the profile. Every other is cut at its commas, in the one
way that there is; it is read iff all its words name capabilities, as the set of those named, and else the
first word that names none is handed back. So lists of the same names are read as the same set, whatever the
order, the repetitions and the blanks; and a set lists its members once each in the order of declaration. -/
theorem parse_as_set :
    (∀ (text : String) (p : Profile), wordOf text.toList = p.name → parse text = .ok p.capabilities) ∧
    (∀ text : String, ∃! ps, Text.Cut ',' text.toList ps) ∧
    (∀ (text : String) (ps : List (List Char)), Text.Cut ',' text.toList ps →
      ((∀ p : Profile, wordOf text.toList ≠ p.name) →
        ((∃ caps, parse text = .ok caps) ↔ ∀ w ∈ wordsOf ps, Capability.Named w) ∧
        (∀ caps, parse text = .ok caps → ∀ c, caps.has c ↔ c.name ∈ wordsOf ps) ∧
        ∀ e, parse text = .error e ↔ ∃ before after, wordsOf ps = before ++ e.value :: after ∧
          (∀ w ∈ before, Capability.Named w) ∧ ¬ Capability.Named e.value) ∧
      (2 ≤ ps.length → ∀ p : Profile, p.name ∈ ps.map wordOf → ∃ e, parse text = .error e)) ∧
    (∀ (text text' : String) (cs cs' : List Capability), Spelled text cs → Spelled text' cs' →
      (∀ c, c ∈ cs ↔ c ∈ cs') →
        ∃ caps, parse text = .ok caps ∧ parse text' = .ok caps ∧ ∀ c, caps.has c ↔ c ∈ cs) ∧
    ∀ caps : CapabilitySet, caps.toList.Sublist Capability.all ∧ caps.toList.Nodup ∧
      ∀ c, c ∈ caps.toList ↔ caps.has c := by
  refine ⟨fun _ _ => parse_profile, fun text => ?_, fun text ps hcut => ⟨fun hprofile => ?_, fun hlong p => ?_⟩,
    fun text text' cs cs' h h' hsame => ?_, fun caps => ?_⟩
  · exact ⟨_, Text.cut_pieces ',' text.toList, fun _ hcut => hcut.eq_pieces⟩
  · rw [parse_list hprofile hcut]
    refine ⟨⟨?_, fun hall => ?_⟩, fun caps hcaps => (foldlM_insertNamed_eq_ok_iff.1 hcaps).2,
      fun e => foldlM_insertNamed_eq_error_iff⟩
    · rintro ⟨caps, hcaps⟩
      exact (foldlM_insertNamed_eq_ok_iff.1 hcaps).1
    · obtain ⟨cs, hcs⟩ := exists_names hall
      exact ⟨_, hcs ▸ foldlM_insertNamed_names cs none⟩
  · exact exists_parse_error hcut hlong
  · have hset : ofList cs' = ofList cs :=
      ext_has fun c => has_ofList.trans ((hsame c).symm.trans has_ofList.symm)
    exact ⟨ofList cs, parse_of_spelled h, hset ▸ parse_of_spelled h', fun c => has_ofList⟩
  · exact ⟨caps.toList_sublist, caps.nodup_toList, fun c => mem_toList_iff⟩

/-- A profile with blanks around it; a list with a profile's name among its pieces, at which it fails; and two
lists of the same names, the one in another order, with blanks, a blank piece and a repetition. -/
theorem parse_as_set_padded :
    parse " io\t" = .ok Profile.io.capabilities ∧
    parse "mapping, core ,sockets" = .error ⟨"core"⟩ ∧
    (Spelled "eof-error, mapping,,mapping " [.eofError, .mapping, .mapping] ∧
      Spelled "mapping,eof-error" [.mapping, .eofError] ∧
      ∃ caps, parse "eof-error, mapping,,mapping " = .ok caps ∧ parse "mapping,eof-error" = .ok caps ∧
        ∀ c, caps.has c ↔ c ∈ [.eofError, .mapping, .mapping]) := by
  obtain ⟨hprofile, -, hlist, hsame, -⟩ := parse_as_set
  have hspace : Text.Blank [' '] := List.forall_mem_singleton.2 rfl
  have hpadded : Spelled "eof-error, mapping,,mapping " [.eofError, .mapping, .mapping] :=
    ⟨["eof-error".toList, " mapping".toList, [], "mapping ".toList],
      .name (l := []) (r := []) .eofError nofun nofun <| .name (l := [' ']) (r := []) .mapping hspace nofun <|
        .blank nofun <| .name (l := []) (r := [' ']) .mapping nofun hspace .nil, by decide⟩
  have hplain : Spelled "mapping,eof-error" [.mapping, .eofError] :=
    ⟨["mapping".toList, "eof-error".toList],
      .name (l := []) (r := []) .mapping nofun nofun <| .name (l := []) (r := []) .eofError nofun nofun .nil,
      by decide⟩
  have hcut : Text.Cut ',' "mapping, core ,sockets".toList
      ["mapping".toList, " core ".toList, "sockets".toList] := ⟨by decide, by decide, by decide⟩
  refine ⟨hprofile _ .io (by decide), ?_, hpadded, hplain, hsame _ _ _ _ hpadded hplain ?_⟩
  · refine ((hlist _ _ hcut).1 fun p => ?_).2.2 ⟨"core"⟩ |>.2 ⟨["mapping"], ["sockets"], ?_, ?_, ?_⟩
    · cases p <;> decide
    · decide
    · exact List.forall_mem_singleton.2 ⟨.mapping, rfl⟩
    · rintro ⟨c, hc⟩
      exact c.name_ne_profile .core hc
  · intro c
    cases c <;> decide

end CapabilitySet

end ObjectRuntime
