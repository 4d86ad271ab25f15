import Mathlib.Data.List.TakeWhile
import ObjectRuntime.Text.Blank

/-! Words of a list. A text is cut at its separators in just one way; the words are what is left of the pieces
without the blanks around them, and pieces of nothing but blanks are no words. Blanks around the whole text lie
around its first and its last piece, so they make no difference to the words. -/

namespace ObjectRuntime.Text

/-- Nothing but blanks. -/
def Blank (cs : List Char) : Prop := ∀ c ∈ cs, isBlank c

variable {cs l r : List Char} {sep : Char} {ps : List (List Char)}

/-! ### Trimming -/

theorem Blank.append (hl : Blank l) (hr : Blank r) : Blank (l ++ r) := List.forall_mem_append.2 ⟨hl, hr⟩

theorem Blank.reverse (h : Blank cs) : Blank cs.reverse := fun c hc => h c (List.mem_reverse.1 hc)

theorem trimStart_append_left (hl : Blank l) : trimStart (l ++ cs) = trimStart cs :=
  List.dropWhile_append_of_pos hl

theorem trimEnd_append_right (hr : Blank r) : trimEnd (cs ++ r) = trimEnd cs := by
  rw [trimEnd, List.reverse_append, trimStart_append_left hr.reverse, trimEnd]

theorem trim_of_blank (h : Blank cs) : trim cs = [] := by
  rw [trim, trimStart, List.dropWhile_eq_nil_iff.2 h]
  rfl

theorem trim_append_left (hl : Blank l) : trim (l ++ cs) = trim cs := by
  rw [trim, trimStart_append_left hl, trim]

theorem trim_append_right (hr : Blank r) : trim (cs ++ r) = trim cs := by
  by_cases hcs : Blank cs
  · rw [trim_of_blank (hcs.append hr), trim_of_blank hcs]
  · have hne : ¬ (trimStart cs).isEmpty := by
      rw [List.isEmpty_iff, trimStart, List.dropWhile_eq_nil_iff]
      exact hcs
    rw [trim, trimStart, List.dropWhile_append, ← trimStart, if_neg hne]
    exact trimEnd_append_right hr

/-- Trimming takes blanks off both ends. -/
theorem exists_pads (cs : List Char) : ∃ l r, Blank l ∧ Blank r ∧ cs = l ++ trim cs ++ r := by
  have hblank (cs : List Char) : Blank (cs.takeWhile isBlank) := fun c hc => List.mem_takeWhile_imp hc
  refine ⟨cs.takeWhile isBlank, ((trimStart cs).reverse.takeWhile isBlank).reverse, hblank cs,
    (hblank _).reverse, ?_⟩
  have hend : trim cs ++ ((trimStart cs).reverse.takeWhile isBlank).reverse = trimStart cs := by
    rw [trim, trimEnd, trimStart, ← List.reverse_append, List.takeWhile_append_dropWhile,
      List.reverse_reverse]
  rw [List.append_assoc, hend, trimStart, List.takeWhile_append_dropWhile]

/-! ### Cutting -/

/-- The text is these pieces with separators in between, and the separator stands in none of them. -/
structure Cut (sep : Char) (cs : List Char) (ps : List (List Char)) : Prop where
  ne_nil : ps ≠ []
  sep_notMem : ∀ p ∈ ps, sep ∉ p
  joined : [sep].intercalate ps = cs

theorem pieces_ne_nil (sep : Char) (cs : List Char) : pieces sep cs ≠ [] := by
  cases cs with
  | nil => exact List.cons_ne_nil _ _
  | cons c cs =>
    rw [pieces]
    split
    · exact List.cons_ne_nil _ _
    · split <;> exact List.cons_ne_nil _ _

theorem pieces_cons_of_ne {c : Char} (h : c ≠ sep) {p : List Char} (hps : pieces sep cs = p :: ps) :
    pieces sep (c :: cs) = (c :: p) :: ps := by
  rw [pieces, if_neg h, hps]

theorem cut_pieces (sep : Char) (cs : List Char) : Cut sep cs (pieces sep cs) := by
  induction cs with
  | nil => exact ⟨List.cons_ne_nil _ _, by simp [pieces], rfl⟩
  | cons c cs ih =>
    obtain ⟨p, ps, hps⟩ := List.exists_cons_of_ne_nil (pieces_ne_nil sep cs)
    rw [hps] at ih
    by_cases hc : c = sep
    · subst hc
      rw [pieces, if_pos rfl, hps]
      refine ⟨List.cons_ne_nil _ _, List.forall_mem_cons.2 ⟨List.not_mem_nil, ih.sep_notMem⟩, ?_⟩
      rw [← ih.joined]
      rfl
    · rw [pieces_cons_of_ne hc hps]
      obtain ⟨hp, hrest⟩ := List.forall_mem_cons.1 ih.sep_notMem
      refine ⟨List.cons_ne_nil _ _, List.forall_mem_cons.2 ⟨?_, hrest⟩, ?_⟩
      · exact List.not_mem_cons_of_ne_of_not_mem (Ne.symm hc) hp
      · rw [← ih.joined]
        cases ps <;> rfl

theorem Cut.unique {qs : List (List Char)} (hp : Cut sep cs ps) (hq : Cut sep cs qs) : ps = qs := by
  rw [← List.splitOn_intercalate sep hp.sep_notMem hp.ne_nil, hp.joined, ← hq.joined,
    List.splitOn_intercalate sep hq.sep_notMem hq.ne_nil]

theorem Cut.eq_pieces (h : Cut sep cs ps) : ps = pieces sep cs := h.unique (cut_pieces sep cs)

theorem pieces_of_notMem (h : sep ∉ cs) : pieces sep cs = [cs] := by
  refine (Cut.eq_pieces ⟨List.cons_ne_nil _ _, ?_, ?_⟩).symm
  · exact List.forall_mem_singleton.2 h
  · exact List.append_nil cs

theorem pieces_append_left (hl : sep ∉ l) (cs : List Char) :
    ∃ p ps, pieces sep cs = p :: ps ∧ pieces sep (l ++ cs) = (l ++ p) :: ps := by
  induction l with
  | nil =>
    obtain ⟨p, ps, hps⟩ := List.exists_cons_of_ne_nil (pieces_ne_nil sep cs)
    exact ⟨p, ps, hps, hps⟩
  | cons c l ih =>
    obtain ⟨hc, hl⟩ := List.ne_and_not_mem_of_not_mem_cons hl
    obtain ⟨p, ps, hps, hpadded⟩ := ih hl
    exact ⟨p, ps, hps, pieces_cons_of_ne (Ne.symm hc) hpadded⟩

theorem pieces_append_right (hr : sep ∉ r) (cs : List Char) :
    ∃ ps p, pieces sep cs = ps ++ [p] ∧ pieces sep (cs ++ r) = ps ++ [p ++ r] := by
  induction cs with
  | nil => exact ⟨[], [], rfl, pieces_of_notMem hr⟩
  | cons c cs ih =>
    obtain ⟨ps, p, hps, hpadded⟩ := ih
    by_cases hc : c = sep
    · refine ⟨[] :: ps, p, ?_, ?_⟩
      · rw [pieces, if_pos hc, hps, List.cons_append]
      · rw [List.cons_append, pieces, if_pos hc, hpadded, List.cons_append]
    · cases ps with
      | nil => exact ⟨[], c :: p, pieces_cons_of_ne hc hps, pieces_cons_of_ne hc hpadded⟩
      | cons q ps => exact ⟨(c :: q) :: ps, p, pieces_cons_of_ne hc hps, pieces_cons_of_ne hc hpadded⟩

/-! ### Words -/

/-- The pieces without the blanks around them, those that are blank left out. -/
def words (sep : Char) (cs : List Char) : List (List Char) :=
  ((pieces sep cs).map trim).filter (!·.isEmpty)

theorem words_append_left (hl : Blank l) (hsep : sep ∉ l) (cs : List Char) :
    words sep (l ++ cs) = words sep cs := by
  obtain ⟨p, ps, hps, hpadded⟩ := pieces_append_left hsep cs
  rw [words, hpadded, List.map_cons, trim_append_left hl, ← List.map_cons, ← hps, words]

theorem words_append_right (hr : Blank r) (hsep : sep ∉ r) (cs : List Char) :
    words sep (cs ++ r) = words sep cs := by
  obtain ⟨ps, p, hps, hpadded⟩ := pieces_append_right hsep cs
  rw [words, hpadded, List.map_append, List.map_singleton, trim_append_right hr, ← List.map_singleton,
    ← List.map_append, ← hps, words]

theorem Blank.notMem (h : Blank cs) (hsep : ¬ isBlank sep) : sep ∉ cs := fun hmem => hsep (h sep hmem)

theorem words_trim (hsep : ¬ isBlank sep) (cs : List Char) : words sep (trim cs) = words sep cs := by
  obtain ⟨l, r, hl, hr, hcs⟩ := exists_pads cs
  calc words sep (trim cs)
    _ = words sep (l ++ trim cs) := (words_append_left hl (hl.notMem hsep) _).symm
    _ = words sep (l ++ trim cs ++ r) := (words_append_right hr (hr.notMem hsep) _).symm
    _ = words sep cs := by rw [← hcs]

/-- A separator inside a text stays when the blanks around it go. -/
theorem notMem_of_trim (hsep : ¬ isBlank sep) (h : sep ∉ trim cs) : sep ∉ cs := by
  obtain ⟨l, r, hl, hr, hcs⟩ := exists_pads cs
  rw [hcs, List.mem_append, List.mem_append, not_or, not_or]
  exact ⟨⟨hl.notMem hsep, h⟩, hr.notMem hsep⟩

end ObjectRuntime.Text
