import ServiceContract.FileTree.Write
import ServiceContract.Proofs.Tables
/-!
# Writing is all or nothing

Whatever a device refuses, a file is either written as a whole or not at all. Where writing
fails, the tree has at most new directories (`GrowsTo`, `growsTo_write`) : the temporary file is
gone again. Where it succeeds, the path leads to a file with the content (`Holds`), and beyond
this file nothing but new directories differs (`write_eq_none`, `wrote_write`). What is used of
following a path is that it goes through directories only, so a path leads to the same place as
long as no directory is lost (`follow_of_directories`).
-/

namespace ServiceContract

/-- A sequence of two steps that may fail gives a value where both do. -/
theorem except_bind_eq_ok {ε α β : Type} {x : Except ε α} {next : α → Except ε β} {b : β} :
    x >>= next = .ok b ↔ ∃ a, x = .ok a ∧ next a = .ok b := by
  cases x with
  | error e => simp [bind, Except.bind]
  | ok a => simp [bind, Except.bind]

/-! ## Entries of a changed tree -/

/-- An entry stays, or a directory is new. -/
def Grows (before after : Option FileEntry) : Prop :=
  after = before ∨ before = none ∧ after = some .directory

theorem Grows.trans {a b c : Option FileEntry} (hab : Grows a b) (hbc : Grows b c) : Grows a c := by
  rcases hbc with rfl | ⟨rfl, rfl⟩
  · exact hab
  · rcases hab with rfl | ⟨-, hdirectory⟩
    · exact Or.inr ⟨rfl, rfl⟩
    · simp at hdirectory

/-- A path can be followed : no part has a character that is not allowed, and it is neither too long
nor nothing. -/
structure Route.Passable (r : Route) : Prop where
  characters : ¬ (r.parts.any (·.toList.contains '\x00')) = true
  size : ¬ FileTree.maxPath < r.size
  parts : ¬ (r.parts = [] && !r.isAbsolute) = true

/-- A path ends in a name, which a file can have. -/
def Route.EndsInName (r : Route) : Prop :=
  r.isOpen = false ∧ ∃ last, r.parts.getLast? = some last ∧ last ≠ "." ∧ last ≠ ".."

namespace FileTree

/-- All entries stay, and at most directories are new. -/
def GrowsTo (t u : FileTree) : Prop :=
  ∀ key, Grows (t.entries.get? key) (u.entries.get? key)

theorem GrowsTo.refl (t : FileTree) : t.GrowsTo t := fun _ => Or.inl rfl

theorem GrowsTo.trans {t u v : FileTree} (htu : t.GrowsTo u) (huv : u.GrowsTo v) : t.GrowsTo v :=
  fun key => (htu key).trans (huv key)

/-- Trees with the same entries differ in nothing. -/
theorem growsTo_of_get?_eq {t u : FileTree} (h : ∀ key, u.entries.get? key = t.entries.get? key) :
    t.GrowsTo u :=
  fun key => Or.inl (h key)

theorem get?_set (t : FileTree) (p : Place) (e : FileEntry) (key : String) :
    (t.set p e).entries.get? key = if p.text = key then some e else t.entries.get? key :=
  Table.get?_insert t.entries p.text key e

/-- A new entry leaves those at other places. -/
theorem get?_set_of_ne {t : FileTree} {p : Place} {e : FileEntry} {key : String}
    (h : key ≠ p.text) : (t.set p e).entries.get? key = t.entries.get? key := by
  rw [get?_set, if_neg (Ne.symm h)]

theorem get?_erase (t : FileTree) (p : Place) (key : String) :
    (t.erase p).entries.get? key = if p.text = key then none else t.entries.get? key :=
  Table.get?_erase t.entries p.text key

theorem entry?_of_names_ne_nil {t : FileTree} {p : Place} (h : p.names ≠ []) :
    t.entry? p = t.entries.get? p.text := by
  rw [FileTree.entry?, if_neg h]

/-- A place that is no directory is not one above all files. -/
theorem names_ne_nil_of_entry?_ne {t : FileTree} {p : Place} (h : t.entry? p ≠ some .directory) :
    p.names ≠ [] := by
  intro hnil
  rw [FileTree.entry?, if_pos hnil] at h
  exact h rfl

theorem get?_of_entry?_eq_file {t : FileTree} {p : Place} {content : ByteArray}
    (h : t.entry? p = some (.file content)) : t.entries.get? p.text = some (.file content) := by
  have hne : t.entry? p ≠ some .directory := by simp [h]
  rw [← entry?_of_names_ne_nil (names_ne_nil_of_entry?_ne hne), h]

/-- A new entry is found at its place, unless that is the root. -/
theorem entry?_set_self {t : FileTree} {p : Place} (h : p.names ≠ []) (e : FileEntry) :
    FileTree.entry? (t.set p e) p = some e := by
  rw [entry?_of_names_ne_nil h, get?_set, if_pos rfl]

theorem get?_of_entry?_eq_none {t : FileTree} {p : Place} (h : t.entry? p = none) :
    t.entries.get? p.text = none := by
  have hne : t.entry? p ≠ some .directory := by simp [h]
  rw [← entry?_of_names_ne_nil (names_ne_nil_of_entry?_ne hne), h]

/-- A directory where nothing was is growth. -/
theorem growsTo_set_directory {t : FileTree} {p : Place} (h : t.entry? p = none) :
    t.GrowsTo (t.set p .directory) := by
  intro key
  rw [get?_set]
  split_ifs with hkey
  · subst hkey
    exact Or.inr ⟨get?_of_entry?_eq_none h, rfl⟩
  · exact Or.inl rfl

/-- What stands at a place stays there. -/
theorem entry?_of_growsTo {t u : FileTree} (h : t.GrowsTo u) {p : Place} {e : FileEntry}
    (hp : t.entry? p = some e) : u.entry? p = some e := by
  unfold FileTree.entry? at hp ⊢
  split_ifs at hp ⊢ with hnames
  · exact hp
  · rcases h p.text with hstays | ⟨hnone, -⟩
    · rw [hstays, hp]
    · simp [hp] at hnone

/-! ## Making directories -/

/-- A directory is made only where nothing stands. -/
theorem makeDirectory_eq_ok {t u : FileTree} {device : Device} {r : Route}
    (h : t.makeDirectory device r = .ok u) :
    ∃ p, t.entry? p = none ∧ u = t.set p .directory := by
  unfold makeDirectory at h
  dsimp only at h
  split at h
  · simp [except_bind_eq_ok] at h
  · obtain ⟨p, -, hp⟩ := except_bind_eq_ok.1 h
    split at hp
    · simp at hp
    · simp at hp
    · next hentry _ => exact ⟨p, hentry, (Except.ok.inj hp).symm⟩

/-- Making a directory adds a directory at most. -/
theorem growsTo_makeDirectory {t u : FileTree} {device : Device} {r : Route}
    (h : t.makeDirectory device r = .ok u) : t.GrowsTo u := by
  obtain ⟨p, hnone, rfl⟩ := makeDirectory_eq_ok h
  exact growsTo_set_directory hnone

/-- Making directories, as far as it gets, adds directories only. -/
theorem growsTo_makeDirectories (t : FileTree) (device : Device) (isAbsolute : Bool)
    (names : List String) : t.GrowsTo (t.makeDirectories device isAbsolute names).1 := by
  induction names generalizing t with
  | nil => exact .refl t
  | cons name outer ih =>
    have houter := ih t
    rw [makeDirectories]
    split
    · next u hmade => exact growsTo_makeDirectory hmade
    -- A parent was missing : it is made first, and the directory is tried once more.
    · split
      · next u e hfailed =>
        rw [hfailed] at houter
        exact houter
      · next u hdone =>
        rw [hdone] at houter
        split
        · next v hmade => exact houter.trans (growsTo_makeDirectory hmade)
        · exact houter
    · exact .refl t

/-! ## The temporary file -/

theorem checkDirectory_eq_ok_iff {t : FileTree} {p : Place} :
    t.checkDirectory p = .ok () ↔ t.entry? p = some .directory := by
  unfold checkDirectory
  cases t.entry? p with
  | none => simp
  | some e => cases e <;> simp

/-- A path leads to a directory if it leads to a place with one. -/
theorem isDirectory_iff {t : FileTree} {r : Route} :
    t.isDirectory r = true ↔ ∃ p, t.follow r = .ok p ∧ t.entry? p = some .directory := by
  unfold isDirectory
  cases t.follow r with
  | error e => simp
  | ok p =>
    cases hentry : t.entry? p with
    | none => simp [hentry]
    | some e => cases e <;> simp [hentry, FileEntry.isDirectory]

/-- The temporary file is a new and empty one in the directory. -/
theorem createSpare_eq_ok {t u : FileTree} {device : Device} {directory : Route} {spare : Place}
    (h : t.createSpare device directory = .ok (u, spare)) : t.isDirectory directory = true ∧
      t.entry? spare = none ∧ u = t.set spare (.file .empty) := by
  unfold createSpare at h
  obtain ⟨d, hfollow, hd⟩ := except_bind_eq_ok.1 h
  obtain ⟨_, hcheck, hspare⟩ := except_bind_eq_ok.1 hd
  have hdirectory := isDirectory_iff.2 ⟨d, hfollow, checkDirectory_eq_ok_iff.1 hcheck⟩
  dsimp only at hspare
  split at hspare
  · simp at hspare
  · obtain ⟨rfl, rfl⟩ := Prod.mk.inj (Except.ok.inj hspare)
    exact ⟨hdirectory, device.unused t d, rfl⟩

/-- A file that was not there before is gone again when it is removed, whatever it held. -/
theorem growsTo_erase_spare {t u : FileTree} {spare : Place} (hunused : t.entry? spare = none)
    (hu : ∀ key, key ≠ spare.text → u.entries.get? key = t.entries.get? key) :
    t.GrowsTo (u.erase spare) := by
  refine growsTo_of_get?_eq fun key => ?_
  rw [get?_erase]
  split_ifs with hkey
  · rw [← hkey, get?_of_entry?_eq_none hunused]
  · exact hu key (Ne.symm hkey)

/-- Filling a file changes that file only. -/
theorem get?_fill {t : FileTree} {device : Device} {p : Place} {content : ByteArray}
    {key : String} (hkey : key ≠ p.text) :
    (t.fill device p content).1.entries.get? key = t.entries.get? key := by
  unfold fill
  split <;> exact get?_set_of_ne hkey

/-- If filling a file succeeds it has the whole content. -/
theorem fill_eq_none {t u : FileTree} {device : Device} {p : Place} {content : ByteArray}
    (h : t.fill device p content = (u, none)) : u = t.set p (.file content) := by
  unfold fill at h
  split at h
  · simp at h
  · exact (Prod.mk.inj h).1.symm

/-! ## Putting it in place -/

/-- A path can be written to if it ends in a name and leads to no directory. -/
theorem target_eq_ok_iff {t : FileTree} {r : Route} {p : Place} : t.target r = .ok p ↔
    r.EndsInName ∧ t.follow r = .ok p ∧ t.entry? p ≠ some .directory := by
  obtain ⟨isAbsolute, parts, isOpen⟩ := r
  unfold target Route.EndsInName
  cases parts.getLast? with
  | none => simp
  | some last =>
    simp only [Option.some.injEq, exists_eq_left', Bool.or_eq_true, decide_eq_true_eq]
    split_ifs with hdots hopen
    · simp only [except_bind_eq_ok, reduceCtorEq, and_false, exists_false, false_iff]
      tauto
    · simp [except_bind_eq_ok, hopen]
    · obtain rfl : isOpen = false := by simpa using hopen
      rw [except_bind_eq_ok]
      constructor
      · rintro ⟨q, hfollow, hq⟩
        split at hq
        · simp at hq
        · next hentry =>
          obtain rfl := Except.ok.inj hq
          exact ⟨⟨rfl, not_or.1 hdots⟩, hfollow, hentry⟩
      · rintro ⟨-, hfollow, hentry⟩
        refine ⟨p, hfollow, ?_⟩
        split
        · contradiction
        · rfl

/-- A renamed file is at its new place and no longer at the old one. -/
theorem rename_eq_ok {t u : FileTree} {device : Device} {source : Place} {r : Route}
    (h : t.rename device source r = .ok u) :
    ∃ p e, t.target r = .ok p ∧ t.entry? source = some e ∧ u = (t.erase source).set p e := by
  unfold rename at h
  obtain ⟨p, htarget, hp⟩ := except_bind_eq_ok.1 h
  split at hp
  · simp at hp
  · next e _ hentry => exact ⟨p, e, htarget, hentry, (Except.ok.inj hp).symm⟩
  · simp at hp

/-! ## Following paths in a changed tree -/

/-- A path leads to a place if it can be followed part by part, and ends in a directory if it
says so. -/
theorem follow_eq_ok_iff {t : FileTree} {r : Route} {p : Place} : t.follow r = .ok p ↔
    r.Passable ∧ r.parts.foldlM t.step r.start = .ok p ∧
      (r.isOpen = true → t.entry? p = some .directory) := by
  unfold follow
  split_ifs with hcharacters hsize hparts hopen
  · exact ⟨nofun, fun h => absurd hcharacters h.1.characters⟩
  · exact ⟨nofun, fun h => absurd hsize h.1.size⟩
  · exact ⟨nofun, fun h => absurd hparts h.1.parts⟩
  · have hpassable : r.Passable := ⟨hcharacters, hsize, hparts⟩
    simp only [except_bind_eq_ok]
    constructor
    · rintro ⟨q, hfold, _, hcheck, hp⟩
      obtain rfl := Except.ok.inj hp
      exact ⟨hpassable, hfold, fun _ => checkDirectory_eq_ok_iff.1 hcheck⟩
    · rintro ⟨-, hfold, hdirectory⟩
      exact ⟨p, hfold, (), checkDirectory_eq_ok_iff.2 (hdirectory hopen), rfl⟩
  · have hpassable : r.Passable := ⟨hcharacters, hsize, hparts⟩
    rw [except_bind_eq_ok]
    constructor
    · rintro ⟨q, hfold, hp⟩
      obtain rfl := Except.ok.inj hp
      exact ⟨hpassable, hfold, fun h => absurd h hopen⟩
    · rintro ⟨-, hfold, -⟩
      exact ⟨p, hfold, rfl⟩

section Directories

variable {t u : FileTree} (h : ∀ p, t.entry? p = some .directory → u.entry? p = some .directory)

include h

theorem step_of_directories {p q : Place} {part : String} (hstep : t.step p part = .ok q) :
    u.step p part = .ok q := by
  unfold step at hstep ⊢
  obtain ⟨_, hcheck, hrest⟩ := except_bind_eq_ok.1 hstep
  exact except_bind_eq_ok.2
    ⟨(), checkDirectory_eq_ok_iff.2 (h p (checkDirectory_eq_ok_iff.1 hcheck)), hrest⟩

theorem foldlM_step_of_directories {parts : List String} {p q : Place}
    (hfold : parts.foldlM t.step p = .ok q) : parts.foldlM u.step p = .ok q := by
  induction parts generalizing p with
  | nil => exact hfold
  | cons part rest ih =>
    rw [List.foldlM_cons] at hfold ⊢
    obtain ⟨next, hnext, hrest⟩ := except_bind_eq_ok.1 hfold
    exact except_bind_eq_ok.2 ⟨next, step_of_directories h hnext, ih hrest⟩

/-- A path leads to the same place as long as no directory is lost. -/
theorem follow_of_directories {r : Route} {p : Place} (hfollow : t.follow r = .ok p) :
    u.follow r = .ok p := by
  obtain ⟨hpassable, hfold, hopen⟩ := follow_eq_ok_iff.1 hfollow
  exact follow_eq_ok_iff.2
    ⟨hpassable, foldlM_step_of_directories h hfold, fun hr => h p (hopen hr)⟩

theorem isDirectory_of_directories {r : Route} (hr : t.isDirectory r = true) :
    u.isDirectory r = true := by
  obtain ⟨p, hfollow, hp⟩ := isDirectory_iff.1 hr
  exact isDirectory_iff.2 ⟨p, follow_of_directories h hfollow, h p hp⟩

/-- A path gives the same place to a file as long as no directory is lost or in its place. -/
theorem target_of_directories {r : Route} {p : Place} (htarget : t.target r = .ok p)
    (hp : u.entry? p ≠ some .directory) : u.target r = .ok p := by
  obtain ⟨hname, hfollow, -⟩ := target_eq_ok_iff.1 htarget
  exact target_eq_ok_iff.2 ⟨hname, follow_of_directories h hfollow, hp⟩

end Directories

/-- Moving a file to a place that holds no directory loses no directory. -/
theorem entry?_move_of_directory {t : FileTree} {source p q : Place} {content : ByteArray}
    (hsource : t.entry? source = some (.file content)) (hp : t.entry? p ≠ some .directory)
    (hq : t.entry? q = some .directory) :
    FileTree.entry? ((t.erase source).set p (.file content)) q = some .directory := by
  by_cases hnames : q.names = []
  · rw [FileTree.entry?, if_pos hnames]
  rw [entry?_of_names_ne_nil hnames] at hq
  have hsource := get?_of_entry?_eq_file hsource
  rw [entry?_of_names_ne_nil (names_ne_nil_of_entry?_ne hp)] at hp
  have hpq : p.text ≠ q.text := fun heq => hp (heq ▸ hq)
  have hsourceq : source.text ≠ q.text := by
    intro heq
    rw [heq, hq] at hsource
    simp at hsource
  rw [entry?_of_names_ne_nil hnames, get?_set, if_neg hpq, get?_erase, if_neg hsourceq, hq]

/-! ## Writing -/

/-- A file was written : the path leads to the content, and all else stays, apart from new
directories. -/
structure Wrote (t : FileTree) (path : String) (content : ByteArray) (u : FileTree) : Prop where
  read : u.read path = .ok content
  others : ∃ p, u.follow (Route.ofPath path) = .ok p ∧
    ∀ key, key ≠ p.text → Grows (t.entries.get? key) (u.entries.get? key)

section Persist

variable {t w u : FileTree} {device : Device} {spare : Place} {r : Route} {content : ByteArray}
  (hunused : t.entry? spare = none)
  (hw : ∀ key, key ≠ spare.text → w.entries.get? key = t.entries.get? key)

include hunused hw

/-- If the last steps fail the temporary file is gone and all else is as it was. -/
theorem growsTo_persist {e : FileError}
    (h : w.persist device spare r content = (u, some e)) : t.GrowsTo u := by
  have hfilled : ∀ key, key ≠ spare.text →
      (w.fill device spare content).1.entries.get? key = t.entries.get? key :=
    fun key hkey => (get?_fill hkey).trans (hw key hkey)
  unfold persist at h
  split at h
  · next v cause hfill =>
    rw [hfill] at hfilled
    rw [← (Prod.mk.inj h).1]
    exact growsTo_erase_spare hunused hfilled
  · next v hfill =>
    rw [hfill] at hfilled
    split at h
    · simp at h
    · rw [← (Prod.mk.inj h).1]
      exact growsTo_erase_spare hunused hfilled

theorem directories_of_get?_eq {q : Place} (hq : t.entry? q = some .directory) :
    w.entry? q = some .directory := by
  by_cases hnames : q.names = []
  · rw [FileTree.entry?, if_pos hnames]
  · rw [entry?_of_names_ne_nil hnames] at hq ⊢
    rw [hw q.text, hq]
    intro hspare
    rw [hspare, get?_of_entry?_eq_none hunused] at hq
    simp at hq

/-- If they succeed the content is found under the path and all else is as it was. -/
theorem persist_eq_none (h : w.persist device spare r content = (u, none)) :
    (∀ q, t.entry? q = some .directory → u.entry? q = some .directory) ∧
      ∃ p, u.target r = .ok p ∧ u.entry? p = some (.file content) ∧
        ∀ key, key ≠ p.text → u.entries.get? key = t.entries.get? key := by
  unfold persist at h
  split at h
  · simp at h
  · next v hfill =>
    split at h
    · next u' hrename =>
      obtain rfl : u' = u := (Prod.mk.inj h).1
      obtain rfl := fill_eq_none hfill
      obtain ⟨p, e, htarget, hentry, rfl⟩ := rename_eq_ok hrename
      obtain ⟨-, -, hp⟩ := target_eq_ok_iff.1 htarget
      have hspare : spare.names ≠ [] :=
        names_ne_nil_of_entry?_ne (t := t) (by simp [hunused])
      obtain rfl : FileEntry.file content = e := by
        rw [entry?_set_self hspare] at hentry
        exact Option.some.inj hentry
      have hmoved : FileTree.entry? ((FileTree.erase (w.set spare (.file content)) spare).set p
          (.file content)) p = some (.file content) :=
        entry?_set_self (names_ne_nil_of_entry?_ne hp) _
      refine ⟨fun q hq => ?_, p, ?_, hmoved, ?_⟩
      · refine entry?_move_of_directory hentry hp (directories_of_get?_eq hunused ?_ hq)
        exact fun key hkey => (get?_set_of_ne hkey).trans (hw key hkey)
      · refine target_of_directories (fun q => entry?_move_of_directory hentry hp) htarget ?_
        simp [hmoved]
      -- The spare place is empty again, as it was at first, unless it is the target itself.
      · intro key hkey
        rw [get?_set, if_neg (Ne.symm hkey), get?_erase]
        split_ifs with hsparekey
        · rw [← hsparekey, get?_of_entry?_eq_none hunused]
        · rw [get?_set, if_neg hsparekey, hw key (Ne.symm hsparekey)]
    · simp at h

end Persist

/-- Writing ends before there is a temporary file, or is completed with one. -/
theorem write_cases (t : FileTree) (path : String) (content : ByteArray) (device : Device) :
    (∃ u e, t.GrowsTo u ∧ t.write path content device = (u, some e)) ∨
      ∃ v spare, t.GrowsTo v ∧ v.isDirectory (Route.ofPath path).parent = true ∧
        v.entry? spare = none ∧ t.write path content device =
          (v.set spare (.file .empty)).persist device spare (Route.ofPath path) content := by
  have hdirectories := growsTo_makeDirectories t device (Route.ofPath path).parent.isAbsolute
    (Route.ofPath path).parent.parts.reverse
  unfold write
  dsimp only
  split
  · next v e hmade =>
    rw [hmade] at hdirectories
    exact Or.inl ⟨v, e, hdirectories, rfl⟩
  · next v hmade =>
    rw [hmade] at hdirectories
    split
    · next e _ => exact Or.inl ⟨v, e, hdirectories, rfl⟩
    · next w spare hspare =>
      obtain ⟨hway, hunused, rfl⟩ := createSpare_eq_ok hspare
      exact Or.inr ⟨v, spare, hdirectories, hway, hunused, rfl⟩

/-- Where writing a file fails, all entries stay, and at most directories are new. -/
theorem growsTo_write {t u : FileTree} {path : String} {content : ByteArray} {device : Device}
    {e : FileError} (h : t.write path content device = (u, some e)) : t.GrowsTo u := by
  rcases write_cases t path content device with
    ⟨v, _, hgrows, heq⟩ | ⟨v, spare, hgrows, -, hunused, heq⟩
  · rw [heq] at h
    rw [← (Prod.mk.inj h).1]
    exact hgrows
  · rw [heq] at h
    exact hgrows.trans (growsTo_persist hunused (fun _ hkey => get?_set_of_ne hkey) h)

/-- A path leads to a file with the given content at a place, and its directory is there. -/
structure Holds (t : FileTree) (path : String) (content : ByteArray) (p : Place) : Prop where
  way : t.isDirectory (Route.ofPath path).parent = true
  target : t.target (Route.ofPath path) = .ok p
  entry : t.entry? p = some (.file content)

theorem Holds.follow {t : FileTree} {path : String} {content : ByteArray} {p : Place}
    (h : t.Holds path content p) : t.follow (Route.ofPath path) = .ok p :=
  (target_eq_ok_iff.1 h.target).2.1

/-- Where writing a file does not fail, the file is there, no directory is lost, and all else
stays, apart from new directories. -/
theorem write_eq_none {t u : FileTree} {path : String} {content : ByteArray} {device : Device}
    (h : t.write path content device = (u, none)) :
    (∀ q, t.entry? q = some .directory → u.entry? q = some .directory) ∧
      ∃ p, u.Holds path content p ∧
        ∀ key, key ≠ p.text → Grows (t.entries.get? key) (u.entries.get? key) := by
  rcases write_cases t path content device with
    ⟨v, _, hgrows, heq⟩ | ⟨v, spare, hgrows, hway, hunused, heq⟩
  · rw [heq] at h
    simp at h
  · rw [heq] at h
    obtain ⟨hdirectories, p, htarget, hentry, hothers⟩ :=
      persist_eq_none hunused (fun _ hkey => get?_set_of_ne hkey) h
    refine ⟨fun q hq => hdirectories q (entry?_of_growsTo hgrows hq), p,
      ⟨isDirectory_of_directories hdirectories hway, htarget, hentry⟩, fun key hkey => ?_⟩
    rw [hothers key hkey]
    exact hgrows key

/-- Where writing a file does not fail, the file is written. -/
theorem wrote_write {t u : FileTree} {path : String} {content : ByteArray} {device : Device}
    (h : t.write path content device = (u, none)) : Wrote t path content u := by
  obtain ⟨-, p, hholds, hothers⟩ := write_eq_none h
  refine ⟨?_, p, hholds.follow, hothers⟩
  rw [read, hholds.follow]
  simp only [bind, Except.bind, hholds.entry]
  rfl

end FileTree

end ServiceContract
