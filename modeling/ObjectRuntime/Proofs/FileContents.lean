import ObjectRuntime.Host.FileSystem
import ObjectRuntime.Proofs.Binding

/-! Files written and read as a whole. Where a path leads depends on the directories alone, and a write
leaves these as they are; so the path leads to the same file afterwards, and what has been written to it
is read back. -/

namespace ObjectRuntime.FileSystem

/-- Every file has contents, and every directory lies in one. -/
structure Sound (fs : FileSystem) : Prop where
  files {p : Path} {i : Nat} (h : fs.entry? p = some (.file i)) : i < fs.contents.size
  parents {p : Path} (h : fs.entry? p = some .directory) : fs.entry? p.dropLast = some .directory
  current : fs.entry? fs.current = some .directory

theorem mem_entries_of_entry? {fs : FileSystem} {p : Path} {e : Entry} (h : fs.entry? p = some e) :
    (p = [] ∧ e = .directory) ∨ (p, e) ∈ fs.entries := by
  unfold entry? at h
  split at h
  · rename_i hempty
    exact Or.inl ⟨List.isEmpty_iff.1 hempty, (Option.some.inj h).symm⟩
  · obtain ⟨before, after, hentries, -⟩ := List.lookup_eq_some_iff.1 h
    rw [hentries]
    exact Or.inr (List.mem_append_right _ List.mem_cons_self)

theorem sound_empty (firstDescriptor : Nat) : (empty firstDescriptor).Sound where
  files h := by
    rcases mem_entries_of_entry? h with ⟨-, h⟩ | h
    · cases h
    · simp [empty] at h
  parents h := by
    rcases mem_entries_of_entry? h with ⟨rfl, -⟩ | h
    · rfl
    · simp only [empty, List.mem_cons, Prod.mk.injEq, reduceCtorEq, and_false, and_true,
        List.not_mem_nil, or_false] at h
      rcases h with rfl | rfl | rfl <;> rfl
  current := rfl

variable {fs gs fs' : FileSystem} {here p q : Path} {bytes path : List UInt8} {t : Target} {i : Nat}
  {mode : OpenMode} {e : Entry}

/-! ### Paths -/

theorem walk_directory (hs : fs.Sound) {names : Path} (hhere : fs.entry? here = some .directory)
    (h : fs.walk here names = .ok p) : fs.entry? p = some .directory := by
  induction names generalizing here with
  | nil => cases h; exact hhere
  | cons name names ih =>
    rw [walk] at h
    split at h
    · exact ih hhere h
    · split at h
      · exact ih (hs.parents hhere) h
      · split at h
        · cases h
        · split at h
          · rename_i hname
            exact ih hname h
          · cases h
          · cases h

/-- The directory that a path starts in. -/
def start (fs : FileSystem) (path : List UInt8) : Path := if path.head? = some 0x2F then [] else fs.current

/-- The proper parts of a path. -/
def names (path : List UInt8) : Path := (parts path).filter (!·.isEmpty)

theorem target_eq (fs : FileSystem) (path : List UInt8) : fs.target path =
    if path = [] then .error .noEntry
    else if maxPath < path.length then .error .nameTooLong
    else match (names path).getLast? with
      | none => .ok ⟨fs.start path, none, path.getLast? = some 0x2F⟩
      | some last =>
        if isDot last || isDotDot last then
          (fs.walk (fs.start path) (names path)).map (⟨·, none, path.getLast? = some 0x2F⟩)
        else
          (fs.walk (fs.start path) (names path).dropLast).map
            (⟨·, some last, path.getLast? = some 0x2F⟩) := by
  simp only [target, List.isEmpty_iff]
  rfl

/-- A path without a last name goes to a directory. -/
theorem target_directory (hs : fs.Sound) (h : fs.target path = .ok t) (hname : t.name = none) :
    fs.entry? t.path = some .directory := by
  have hstart : fs.entry? (fs.start path) = some .directory := by
    unfold start
    split
    · rfl
    · exact hs.current
  have hpath : t.path = t.directory := by rw [Target.path, hname, Option.toList_none, List.append_nil]
  rw [hpath]
  rw [target_eq] at h
  split at h
  · cases h
  split at h
  · cases h
  split at h
  · cases h
    exact hstart
  split at h
  · obtain ⟨d, hd, rfl⟩ := map_eq_ok_iff.1 h
    exact walk_directory hs hstart hd
  · obtain ⟨d, hd, rfl⟩ := map_eq_ok_iff.1 h
    cases hname

section Directories

variable (hdirectories : ∀ p, fs.entry? p = some .directory → gs.entry? p = some .directory)

include hdirectories

theorem walk_mono {names : Path} (h : fs.walk here names = .ok p) : gs.walk here names = .ok p := by
  induction names generalizing here with
  | nil => exact h
  | cons name names ih =>
    rw [walk] at h ⊢
    split at h
    · rename_i hdot
      rw [if_pos hdot]
      exact ih h
    · rename_i hdot
      rw [if_neg hdot]
      split at h
      · rename_i hup
        rw [if_pos hup]
        exact ih h
      · rename_i hup
        rw [if_neg hup]
        split at h
        · cases h
        · rename_i hlong
          rw [if_neg hlong]
          split at h
          · rename_i hname
            rw [hdirectories _ hname]
            exact ih h
          · cases h
          · cases h

/-- With the same directories a path leads to the same place. -/
theorem target_mono (hcurrent : gs.current = fs.current) (h : fs.target path = .ok t) :
    gs.target path = .ok t := by
  have hstart : gs.start path = fs.start path := by rw [start, start, hcurrent]
  rw [target_eq] at h ⊢
  rw [hstart]
  split at h
  · cases h
  rename_i hempty
  rw [if_neg hempty]
  split at h
  · cases h
  rename_i hlong
  rw [if_neg hlong]
  split at h
  · exact h
  split at h
  · rename_i hdots
    rw [if_pos hdots]
    obtain ⟨d, hd, rfl⟩ := map_eq_ok_iff.1 h
    rw [walk_mono hdirectories hd]
    rfl
  · rename_i hdots
    rw [if_neg hdots]
    obtain ⟨d, hd, rfl⟩ := map_eq_ok_iff.1 h
    rw [walk_mono hdirectories hd]
    rfl

end Directories

theorem entry?_addFile (hp : p ≠ []) :
    FileSystem.entry? (fs.addFile p bytes) p = some (.file fs.contents.size) := by
  unfold entry?
  rw [if_neg (by simpa using hp)]
  exact List.lookup_cons_self

theorem entry?_addFile_of_ne (h : q ≠ p) : FileSystem.entry? (fs.addFile p bytes) q = fs.entry? q := by
  have hne : (q == p) = false := beq_false_of_ne h
  unfold entry?
  rw [addFile, List.lookup_cons, hne]

theorem ne_nil_of_entry?_eq_none (h : fs.entry? p = none) : p ≠ [] := by
  rintro rfl
  cases h

theorem Sound.addFile (hs : fs.Sound) (hparent : fs.entry? p.dropLast = some .directory)
    (hnew : fs.entry? p = none) : (fs.addFile p bytes).Sound := by
  have hfile : FileSystem.entry? (fs.addFile p bytes) p = some (.file fs.contents.size) :=
    entry?_addFile (ne_nil_of_entry?_eq_none hnew)
  have hkept {q : Path} (hq : fs.entry? q = some .directory) :
      FileSystem.entry? (fs.addFile p bytes) q = some .directory := by
    rw [entry?_addFile_of_ne, hq]
    rintro rfl
    cases hnew.symm.trans hq
  refine ⟨fun {q i} h => ?_, fun {q} h => ?_, hkept hs.current⟩
  · rw [FileSystem.addFile, Array.size_push]
    by_cases hq : q = p
    · subst hq
      cases hfile.symm.trans h
      exact Nat.lt_succ_self _
    · rw [entry?_addFile_of_ne hq] at h
      exact Nat.lt_succ_of_lt (hs.files h)
  · by_cases hq : q = p
    · subst hq
      cases hfile.symm.trans h
    · rw [entry?_addFile_of_ne hq] at h
      exact hkept (hs.parents h)

/-! ### Opening -/

/-- What a path opens once it is taken apart. -/
def enter (fs : FileSystem) (mode : OpenMode) (t : Target) : Except Errno (Entry × FileSystem) :=
  match fs.entry? t.path with
  | some e => permit mode t.slash e >>= fun _ => .ok (e, fs.truncateEntry mode e)
  | none => if mode.create then .ok (.file fs.contents.size, fs.addFile t.path []) else .error .noEntry

theorem resolve_eq (fs : FileSystem) (path : List UInt8) (mode : OpenMode) : fs.resolve path mode =
    if mode.create && mode.directory then .error .invalid
    else fs.target path >>= fun t =>
      if mode.create && t.slash && t.name.isSome then .error .isDirectory
      else if t.name.any (maxName < ·.length) then .error .nameTooLong
      else fs.enter mode t := by
  unfold resolve
  dsimp only
  refine if_congr Iff.rfl rfl (congrArg (fs.target path >>= ·) (funext fun t => ?_))
  refine if_congr Iff.rfl rfl (if_congr Iff.rfl rfl ?_)
  unfold enter
  cases fs.entry? t.path <;> rfl

theorem resolve_eq_ok_iff : fs.resolve path mode = .ok (e, fs') ↔ (mode.create && mode.directory) = false ∧
    ∃ t, fs.target path = .ok t ∧ (mode.create && t.slash && t.name.isSome) = false ∧
      t.name.any (maxName < ·.length) = false ∧ fs.enter mode t = .ok (e, fs') := by
  have hif {c : Bool} {err : Errno} {x : Except Errno (Entry × FileSystem)} :
      (if c = true then .error err else x) = .ok (e, fs') ↔ c = false ∧ x = .ok (e, fs') := by
    cases c <;> simp
  rw [resolve_eq, hif, bind_eq_ok_iff]
  simp only [hif]

theorem locate_eq_ok_iff : fs.locate path mode = .ok (e, fs') ↔
    path.contains 0 = false ∧ fs.resolve path mode = .ok (e, fs') := by
  unfold locate
  cases hzero : path.contains 0 with
  | true => simp
  | false => cases fs.resolve path mode <;> simp [Except.mapError]

/-! ### Writing and reading -/

def readMode : OpenMode := ⟨.readOnly, false, false, false, false, false⟩

def writeMode : OpenMode := ⟨.writeOnly, true, false, true, false, false⟩

/-- The path leads to the null device, which keeps nothing of what is written to it. -/
def IsNull (fs : FileSystem) (path : List UInt8) : Prop :=
  ∃ t, fs.target path = .ok t ∧ fs.entry? t.path = some .sink

/-- The path leads to this file. -/
structure Leads (fs : FileSystem) (path : List UInt8) (i : Nat) : Prop where
  zeroless : path.contains 0 = false
  target : ∃ t, fs.target path = .ok t ∧ t.name.any (maxName < ·.length) = false ∧ t.slash = false ∧
    fs.entry? t.path = some (.file i)

theorem contentsOf_of_leads (h : fs.Leads path i) : fs.contentsOf path = .ok (fs.content i) := by
  obtain ⟨t, ht, hlength, hslash, hentry⟩ := h.target
  have henter : fs.enter readMode t = .ok (.file i, fs) := by
    rw [enter, hentry, hslash]
    rfl
  have hresolve : fs.resolve path readMode = .ok (.file i, fs) :=
    resolve_eq_ok_iff.2 ⟨rfl, t, ht, rfl, hlength, henter⟩
  have hlocate : fs.locate path readMode = .ok (.file i, fs) := locate_eq_ok_iff.2 ⟨h.zeroless, hresolve⟩
  exact bind_eq_ok_iff.2 ⟨_, hlocate, rfl⟩

/-- Opening for writing takes a file or device that is there, emptied, or makes a new file. -/
theorem enter_writeMode (h : fs.enter writeMode t = .ok (e, fs')) :
    (fs.entry? t.path = some e ∧ e ≠ .directory ∧ t.slash = false ∧ fs' = fs.truncateEntry writeMode e) ∨
      (fs.entry? t.path = none ∧ e = .file fs.contents.size ∧ fs' = fs.addFile t.path []) := by
  unfold enter at h
  split at h
  · rename_i e' hentry
    obtain ⟨⟨⟩, hpermit, heq⟩ := bind_eq_ok_iff.1 h
    cases heq
    refine Or.inl ⟨hentry, ?_, ?_, rfl⟩
    · rintro rfl
      cases hpermit
    · cases e <;> cases hslash : t.slash <;> rw [hslash] at hpermit <;> first | rfl | cases hpermit
  · rename_i hentry
    cases h
    exact Or.inr ⟨hentry, rfl, rfl⟩

/-- Puts bytes into a file that there is. -/
def store (fs : FileSystem) (i : Nat) (bytes : List UInt8) : FileSystem :=
  { fs with contents := fs.contents.setIfInBounds i bytes }

theorem content_store (h : i < fs.contents.size) : (fs.store i bytes).content i = bytes := by
  simp [store, content, Array.getD, h]

/-- What is written lies in the file that the path leads to from then on. -/
theorem leads_of_setContents (hs : fs.Sound) (h : fs.setContents path bytes = .ok fs')
    (hnull : ¬ fs.IsNull path) : ∃ i, fs'.Leads path i ∧ fs'.content i = bytes := by
  obtain ⟨⟨e, gs⟩, hlocate, hwrite⟩ := bind_eq_ok_iff.1 h
  obtain ⟨hzero, hresolve⟩ := locate_eq_ok_iff.1 hlocate
  obtain ⟨-, t, ht, hslash, hlength, henter⟩ := resolve_eq_ok_iff.1 hresolve
  rcases enter_writeMode henter with ⟨hentry, hne, hslash, rfl⟩ | ⟨hentry, rfl, rfl⟩
  · cases e with
    | directory => exact absurd rfl hne
    | sink => exact absurd ⟨t, ht, hentry⟩ hnull
    | file i =>
      have hfs' : fs' = (fs.store i []).store i bytes := (Except.ok.inj hwrite).symm
      have hsize : i < (fs.store i []).contents.size := by
        rw [store, Array.size_setIfInBounds]
        exact hs.files hentry
      have hdirectories (p : Path) (hp : fs.entry? p = some .directory) :
          FileSystem.entry? ((fs.store i []).store i bytes) p = some .directory := hp
      subst hfs'
      exact ⟨i, ⟨hzero, t, target_mono hdirectories rfl ht, hlength, hslash, hentry⟩, content_store hsize⟩
  · have hfs' : fs' = (fs.addFile t.path []).store fs.contents.size bytes := (Except.ok.inj hwrite).symm
    have hsize : fs.contents.size < (fs.addFile t.path []).contents.size := by
      rw [addFile, Array.size_push]
      exact Nat.lt_succ_self _
    have hdirectories (p : Path) (hp : fs.entry? p = some .directory) :
        FileSystem.entry? (fs.addFile t.path []) p = some .directory := by
      rw [entry?_addFile_of_ne, hp]
      rintro rfl
      cases hentry.symm.trans hp
    -- there being nothing at the place, it is not a directory, so the path ends in a name
    have hname : t.name.isSome = true := by
      cases hname : t.name with
      | none => cases hentry.symm.trans (target_directory hs ht hname)
      | some name => rfl
    have hslash : t.slash = false := by
      rw [hname, Bool.and_true] at hslash
      exact hslash
    have hfile : FileSystem.entry? (fs.addFile t.path []) t.path = some (.file fs.contents.size) :=
      entry?_addFile (ne_nil_of_entry?_eq_none hentry)
    subst hfs'
    exact ⟨fs.contents.size, ⟨hzero, t, target_mono hdirectories rfl ht, hlength, hslash, hfile⟩,
      content_store hsize⟩

theorem contentsOf_setContents (hs : fs.Sound) (h : fs.setContents path bytes = .ok fs')
    (hnull : ¬ fs.IsNull path) : fs'.contentsOf path = .ok bytes := by
  obtain ⟨i, hleads, hcontent⟩ := leads_of_setContents hs h hnull
  rw [contentsOf_of_leads hleads, hcontent]

end ObjectRuntime.FileSystem
