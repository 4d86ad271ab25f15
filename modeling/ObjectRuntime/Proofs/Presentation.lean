import ObjectRuntime.Proofs.ManifestText
import ObjectRuntime.Proofs.Rewording

/-! Manifests in other words. What a manifest is read for depends on what its document says and not on how: every
record of it is read whatever the order of its members, from an object that may leave out defaults and, if it is
open, have remarks. -/

namespace ObjectRuntime

open Json

/-- Nothing is edited. -/
def Json.Content.Kept : Content → Content → Prop := fun _ _ => False

theorem Json.preserves_kept {α : Type} (read : Reader α) : Preserves read Content.Kept := fun _ _ _ h => h.elim

theorem Json.breaks_kept {α : Type} (read : Reader α) : Breaks read Content.Kept := fun _ _ _ _ h => h.elim

theorem Json.Shape.Draft.need_eq_ok_iff {ι : Type} {s : Shape ι} {d : Shape.Draft s} {i : ι} {v : s.Value i} :
    d.need i = .ok v ↔ d i = some v := by
  unfold Shape.Draft.need
  cases d i <;> simp

/-! ### Slots and layouts -/

theorem AttrSlot.regular : AttrSlot.shape.Regular (fun _ => none) fun d => do
    return (⟨← d.need .pos, ← d.need .code⟩ : AttrSlot) where
  declared := AttrSlot.declared
  byContent
    | .pos => (byContent_below _ _).map _
    | .code => (byContent_below _ _).map _
  finish_default d := by simp only [Option.or_none]
  need {d a i} h _ := by
    simp only [bind_eq_ok_iff, Shape.Draft.need_eq_ok_iff] at h
    obtain ⟨_, hpos, _, hcode, -⟩ := h
    cases i <;> simp [*]
  null hi := by cases hi

theorem AttrSlot.byContent : ByContent AttrSlot.reader := Shape.byContent_reader regular.declared regular.byContent

def AttrSlot.Rewords : Content → Content → Prop := AttrSlot.shape.Rewords (fun _ => none) fun _ => Content.Kept

def AttrSlot.Spoils : Content → Content → Prop := AttrSlot.shape.Spoils fun _ => Content.Kept

theorem AttrSlot.preserves : Preserves AttrSlot.reader AttrSlot.Rewords :=
  AttrSlot.regular.preserves fun _ => preserves_kept _

theorem AttrSlot.breaks : Breaks AttrSlot.reader AttrSlot.Spoils :=
  AttrSlot.regular.breaks fun _ => breaks_kept _

theorem Layout.regular : Layout.shape.Regular (fun _ => none) fun d => do
    return (⟨← d.need (.slot .classRef), ← d.need (.slot .args), ← d.need (.slot .fn), ← d.need (.slot .data),
      ← d.need (.slot .value), ← d.need (.slot .context), ← d.need .functionSize⟩ : Layout) where
  declared := Layout.declared
  byContent
    | .slot _ => AttrSlot.byContent
    | .functionSize => (byContent_below _ _).map _
  finish_default d := by simp only [Option.or_none]
  need {d a i} h _ := by
    simp only [bind_eq_ok_iff, Shape.Draft.need_eq_ok_iff] at h
    obtain ⟨_, hclassRef, _, hargs, _, hfn, _, hdata, _, hvalue, _, hcontext, _, hsize, -⟩ := h
    cases i with
    | slot a => cases a <;> simp [*]
    | functionSize => simp [*]
  null hi := by cases hi

theorem Layout.byContent : ByContent Layout.reader := Shape.byContent_reader regular.declared regular.byContent

def Layout.Rewords : Content → Content → Prop := Layout.shape.Rewords (fun _ => none) fun
  | .slot _ => AttrSlot.Rewords
  | .functionSize => Content.Kept

def Layout.Spoils : Content → Content → Prop := Layout.shape.Spoils fun
  | .slot _ => AttrSlot.Spoils
  | .functionSize => Content.Kept

theorem Layout.preserves : Preserves Layout.reader Layout.Rewords := by
  refine Layout.regular.preserves fun i => ?_
  cases i with
  | slot a => exact AttrSlot.preserves
  | functionSize => exact preserves_kept _

theorem Layout.breaks : Breaks Layout.reader Layout.Spoils := by
  refine Layout.regular.breaks fun i => ?_
  cases i with
  | slot a => exact AttrSlot.breaks
  | functionSize => exact breaks_kept _

/-! ### Tables -/

theorem Param.regular : Param.shape.Regular (fun _ => none) fun d => do
    return (⟨← d.need .code, ← d.need .pos⟩ : Param) where
  declared := Param.declared
  byContent _ := (byContent_below _ _).map _
  finish_default d := by simp only [Option.or_none]
  need {d a i} h _ := by
    simp only [bind_eq_ok_iff, Shape.Draft.need_eq_ok_iff] at h
    obtain ⟨_, hcode, _, hpos, -⟩ := h
    cases i <;> simp [*]
  null hi := by cases hi

theorem Param.byContent : ByContent Param.reader := Shape.byContent_reader regular.declared regular.byContent

def Param.Rewords : Content → Content → Prop := Param.shape.Rewords (fun _ => none) fun _ => Content.Kept

def Param.Spoils : Content → Content → Prop := Param.shape.Spoils fun _ => Content.Kept

theorem Param.preserves : Preserves Param.reader Param.Rewords :=
  Param.regular.preserves fun _ => preserves_kept _

theorem Param.breaks : Breaks Param.reader Param.Spoils := Param.regular.breaks fun _ => breaks_kept _

/-- What a field stands for where it is left out. -/
def ParamTable.defaults : (i : ParamTableField) → Option (ParamTable.shape.Value i)
  | .params => some []
  | .min => none
  | .max => none

theorem ParamTable.regular : ParamTable.shape.Regular ParamTable.defaults fun d => do
    return (⟨← d.need .min, ← d.need .max, ((d .params).getD []).toArray⟩ : ParamTable) where
  declared := ParamTable.declared
  byContent
    | .min => (byContent_below _ _).map _
    | .max => (byContent_below _ _).map _
    | .params => byContent_list Param.byContent
  finish_default d := by
    simp only [Shape.Draft.need, defaults, Option.or_none]
    cases d .params <;> rfl
  need {d a i} h hi := by
    simp only [bind_eq_ok_iff, Shape.Draft.need_eq_ok_iff] at h
    obtain ⟨_, hmin, _, hmax, -⟩ := h
    cases i with
    | params => cases hi
    | _ => simp [*]
  null {i v} hi := by
    cases i with
    | params => exact reject_ne_ok _ _
    | _ => cases hi

theorem ParamTable.byContent : ByContent ParamTable.reader :=
  Shape.byContent_reader regular.declared regular.byContent

def ParamTable.Rewords : Content → Content → Prop := ParamTable.shape.Rewords ParamTable.defaults fun
  | .params => Content.InItem Param.Rewords
  | _ => Content.Kept

def ParamTable.Spoils : Content → Content → Prop := ParamTable.shape.Spoils fun
  | .params => Content.InItem Param.Spoils
  | _ => Content.Kept

theorem ParamTable.preserves : Preserves ParamTable.reader ParamTable.Rewords := by
  refine ParamTable.regular.preserves fun i => ?_
  cases i with
  | params => exact preserves_list Param.byContent Param.preserves
  | _ => exact preserves_kept _

theorem ParamTable.breaks : Breaks ParamTable.reader ParamTable.Spoils := by
  refine ParamTable.regular.breaks fun i => ?_
  cases i with
  | params => exact breaks_list Param.byContent Param.breaks
  | _ => exact breaks_kept _

theorem Table.byContent : ByContent Table.reader := (byContent_list ((byContent_below _ _).map _)).map _

/-! ### Manifests -/

namespace Manifest

def defaults : (i : ManifestField) → Option (Manifest.shape.Value i)
  | .schemaVersion => none
  | .caps => some ""
  | .layout => none
  | .tables => some .empty
  | .paramTables => some .empty

theorem regular : Manifest.shape.Regular defaults fun d => do
    return (⟨← d.need .schemaVersion, (d .caps).getD "", ← d.need .layout, (d .tables).getD .empty,
      (d .paramTables).getD .empty⟩ : Manifest) where
  declared := Manifest.declared
  byContent
    | .schemaVersion => byContent_text
    | .caps => byContent_text
    | .layout => Layout.byContent
    | .tables => byContent_map Table.byContent
    | .paramTables => byContent_map ParamTable.byContent
  finish_default d := by
    simp only [Shape.Draft.need, defaults, Option.or_none]
    cases d .caps <;> cases d .tables <;> cases d .paramTables <;> rfl
  need {d a i} h hi := by
    simp only [bind_eq_ok_iff, Shape.Draft.need_eq_ok_iff] at h
    obtain ⟨_, hversion, _, hlayout, -⟩ := h
    cases i with
    | schemaVersion => simp [hversion]
    | layout => simp [hlayout]
    | _ => cases hi
  null {i v} hi := by
    cases i with
    | schemaVersion => cases hi
    | layout => cases hi
    | _ => exact reject_ne_ok _ _

/-- The document says the same in other words. -/
def Rewords : Content → Content → Prop := Manifest.shape.Rewords defaults fun
  | .layout => Layout.Rewords
  | .tables => MapRewords Content.Kept
  | .paramTables => MapRewords ParamTable.Rewords
  | _ => Content.Kept

/-- A record of the document is spoilt. -/
def Spoils : Content → Content → Prop := Manifest.shape.Spoils fun
  | .layout => Layout.Spoils
  | .paramTables => Content.InEntry ParamTable.Spoils
  | _ => Content.Kept

theorem preserves : Preserves Manifest.reader Rewords := by
  refine regular.preserves fun i => ?_
  cases i with
  | layout => exact Layout.preserves
  | tables => exact preserves_map Table.byContent (preserves_kept _)
  | paramTables => exact preserves_map ParamTable.byContent ParamTable.preserves
  | _ => exact preserves_kept _

theorem breaks : Breaks Manifest.reader Spoils := by
  refine regular.breaks fun i => ?_
  cases i with
  | layout => exact Layout.breaks
  | paramTables => exact breaks_entry ParamTable.byContent ParamTable.breaks
  | _ => exact breaks_kept _

theorem byContent : ByContent Manifest.reader := Shape.byContent_reader regular.declared regular.byContent

variable {document : List UInt8} {m : Manifest} {c : Content}

/-- A document is read for a manifest if it is well formed and what it says is taken for it. -/
theorem ofBytes_eq_ok_iff :
    ofBytes document = .ok m ↔ ∃ c, (Document.ofBytes document).content? = some c ∧ Takes Manifest.reader c m := by
  rw [ofBytes, Document.readAs, bind_eq_ok_iff, Document.content?]
  cases (Document.ofBytes document).excess with
  | some f => simp
  | none => simp [byContent _ _]

/-- What a document is read for depends on what it says. Where its objects have their members in another order,
what is equal to its default is left out, or remarks stand with slots and parameters, and all that as often as one
likes, it is read for the same manifest. Where a manifest, a layout or a parameter table has a member that is not
known, or any of the records one that is repeated or one too few, or where nothing is written for what has a
default, it is not read at all. -/
theorem read_by_content (hm : ofBytes document = .ok m) :
    ∃ c, (Document.ofBytes document).content? = some c ∧
      (∀ document' c', (Document.ofBytes document').content? = some c' →
        Relation.ReflTransGen Rewords c c' → ofBytes document' = .ok m) ∧
      ∀ document' c' c'', (Document.ofBytes document').content? = some c'' →
        Relation.ReflTransGen Rewords c c' → Spoils c' c'' → ∃ e, ofBytes document' = .error e := by
  obtain ⟨c, hc, htakes⟩ := ofBytes_eq_ok_iff.1 hm
  have hsame {c' : Content} (h : Relation.ReflTransGen Rewords c c') : Takes Manifest.reader c' m := by
    induction h with
    | refl => exact htakes
    | tail _ hR ih => exact preserves _ _ m hR ih
  refine ⟨c, hc, fun document' c' hc' h => ofBytes_eq_ok_iff.2 ⟨c', hc', hsame h⟩,
    fun document' c' c'' hc'' h hR => ?_⟩
  cases hread : ofBytes document' with
  | ok m' =>
    obtain ⟨c₀, hc₀, htakes'⟩ := ofBytes_eq_ok_iff.1 hread
    obtain rfl := Option.some.inj (hc''.symm.trans hc₀)
    exact absurd htakes' (breaks _ _ m m' hR (hsame h))
  | error e => exact ⟨e, rfl⟩

/-! A manifest without tables in three documents: one with everything in its place, one with the layout first, a
remark on the first slot and nothing said of the capabilities, and one with the remark on the layout instead. -/

def sparse : Manifest where
  schemaVersion := "1"
  caps := ""
  layout := ⟨⟨0, 1⟩, ⟨1, 2⟩, ⟨2, 3⟩, ⟨3, 4⟩, ⟨4, 5⟩, ⟨5, 6⟩, 3⟩
  tables := .empty
  paramTables := .empty

def slotJson (pos code : Nat) (remarks : List (String × Json)) : Json :=
  .obj (("pos", .int pos) :: ("code", .int code) :: remarks)

def layoutJson (slotRemarks remarks : List (String × Json)) : Json :=
  .obj (("class", slotJson 0 1 slotRemarks) :: ([("args", slotJson 1 2 []), ("fn", slotJson 2 3 []),
    ("data", slotJson 3 4 []), ("value", slotJson 4 5 []), ("context", slotJson 5 6 []),
    ("function_instance_size", .int 3)] ++ remarks))

def sparseDocument (slotRemarks remarks : List (String × Json)) : List UInt8 :=
  Json.toBytes (.obj [("schema_version", .str "1"), ("caps", .str ""), ("layout", layoutJson slotRemarks remarks)])

def remarkedDocument : List UInt8 :=
  Json.toBytes (.obj [("layout", layoutJson [("remark", .arr [.null])] []), ("schema_version", .str "1")])

def misplacedDocument : List UInt8 := sparseDocument [] [("remark", .arr [.null])]

def digit (n : Nat) : Content := .number ⟨false, [n], [], none⟩

def slotContent (pos code : Nat) (remarks : List Member) : Content :=
  .object ((some "pos", digit pos) :: (some "code", digit code) :: remarks)

def layoutContent (slotRemarks remarks : List Member) : Content :=
  .object ((some "class", slotContent 0 1 slotRemarks) ::
    ([(some "args", slotContent 1 2 []), (some "fn", slotContent 2 3 []), (some "data", slotContent 3 4 []),
      (some "value", slotContent 4 5 []), (some "context", slotContent 5 6 []),
      (some "function_instance_size", digit 3)] ++ remarks))

def versionMember : Member := (some "schema_version", .string (some "1"))

def capsMember : Member := (some "caps", .string (some ""))

def layoutMember (slotRemarks remarks : List Member) : Member := (some "layout", layoutContent slotRemarks remarks)

def remark : Member := (some "remark", .array [.null])

theorem content?_sparse : (Document.ofBytes (sparseDocument [] [])).content? =
    some (.object [versionMember, capsMember, layoutMember [] []]) := by
  decide +kernel

theorem content?_remarked : (Document.ofBytes remarkedDocument).content? =
    some (.object [layoutMember [remark] [], versionMember]) := by
  decide +kernel

theorem content?_misplaced : (Document.ofBytes misplacedDocument).content? =
    some (.object [versionMember, capsMember, layoutMember [] [remark]]) := by
  decide +kernel

theorem read_by_content_sparse : ofBytes (sparseDocument [] []) = .ok sparse ∧
    ofBytes remarkedDocument = .ok sparse ∧ ∃ e, ofBytes misplacedDocument = .error e := by
  have hread : ofBytes (sparseDocument [] []) = .ok sparse := by decide +kernel
  obtain ⟨c, hc, hsame, hspoilt⟩ := read_by_content hread
  obtain rfl := Option.some.inj (content?_sparse.symm.trans hc)
  have hslot : ∀ i, AttrSlot.shape.name i ≠ "remark" := by
    intro i
    cases i <;> decide
  have hlayout : ∀ i, Layout.shape.name i ≠ "remark" := by
    intro i
    cases i with
    | slot a => cases a <;> decide
    | functionSize => decide
  have hremark : AttrSlot.Rewords (slotContent 0 1 []) (slotContent 0 1 [remark]) :=
    .remarked [(some "pos", digit 0), (some "code", digit 1)] [] (.array [.null]) rfl hslot
  have hclass : Layout.Rewords (layoutContent [] []) (layoutContent [remark] []) :=
    Shape.Rewords.field (s := Layout.shape) (i := .slot .classRef) [] _ hremark
  have hremarked : Rewords (.object [versionMember, capsMember, layoutMember [] []])
      (.object [versionMember, capsMember, layoutMember [remark] []]) :=
    Shape.Rewords.field (s := Manifest.shape) (i := .layout) [versionMember, capsMember] [] hclass
  have hshort : Rewords (.object [versionMember, capsMember, layoutMember [remark] []])
      (.object [versionMember, layoutMember [remark] []]) :=
    Shape.Rewords.defaulted (s := Manifest.shape) (i := .caps) (v := "") [versionMember] [layoutMember [remark] []] rfl rfl
  have hturned : Rewords (.object [versionMember, layoutMember [remark] []])
      (.object [layoutMember [remark] [], versionMember]) :=
    .permuted ⟨.swap _ _ _⟩
  have hmisplaced : Layout.Spoils (layoutContent [] []) (layoutContent [] [remark]) :=
    .unknown ((some "class", slotContent 0 1 []) :: _) [] (.array [.null]) rfl hlayout
  refine ⟨hread, hsame _ _ content?_remarked (((Relation.ReflTransGen.single hremarked).tail hshort).tail hturned),
    hspoilt _ _ _ content?_misplaced .refl ?_⟩
  exact Shape.Spoils.field (s := Manifest.shape) (i := .layout) [versionMember, capsMember] [] hmisplaced

end Manifest

end ObjectRuntime
