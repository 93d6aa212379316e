import ServiceContract.Proofs.Pipeline
/-!
# Compiling again

A compilation writes one file, and reads other files. So on what it leaves behind, all inputs are
read as before (`read_of_write`), and the same contract is made from them (`build_congr`). The
output holds this contract already and the directory of the output is there, so that writing it
again puts the same content in place of itself (`write_of_holds`). Compiling again gives the same
report and the same tree, down to the last entry (`compile_of_compile`). This is as long as the
output is none of the inputs : a path leads to one place only, whatever the tree
(`eq_placeOf_of_follow`), and what stands in a tree stands under the text of its place.
-/

namespace ServiceContract

/-- A device that refuses nothing of what is done with a temporary file. It may refuse to make
directories. -/
structure Device.Accepts (device : Device) : Prop where
  create : ∀ p, device.refusal (.create p) = none
  fill : device.refusal .fill = none
  flush : device.refusal .flush = none
  rename : device.refusal .rename = none

theorem Device.accepts_reliable : reliable.Accepts := ⟨fun _ => rfl, rfl, rfl, rfl⟩

namespace FileTree

/-! ## Where paths lead -/

/-- A step along a path depends on the tree only in whether it can be taken. -/
theorem eq_of_step {t : FileTree} {p q : Place} {part : String} (h : t.step p part = .ok q) :
    q = if part = "." then p else if part = ".." then p.up else p.down part := by
  unfold step at h
  obtain ⟨_, -, hq⟩ := except_bind_eq_ok.1 h
  split_ifs at hq ⊢ <;> exact (Except.ok.inj hq).symm

theorem eq_foldl_of_foldlM_step {t : FileTree} {parts : List String} {p q : Place}
    (h : parts.foldlM t.step p = .ok q) : q = parts.foldl (fun p part =>
      if part = "." then p else if part = ".." then p.up else p.down part) p := by
  induction parts generalizing p with
  | nil => exact (Except.ok.inj h).symm
  | cons part rest ih =>
    rw [List.foldlM_cons] at h
    obtain ⟨next, hnext, hrest⟩ := except_bind_eq_ok.1 h
    rw [List.foldl_cons, ← eq_of_step hnext]
    exact ih hrest

/-- The tree decides whether a path leads to a place, but not to which. -/
theorem eq_placeOf_of_follow {t : FileTree} {path : String} {p : Place}
    (h : t.follow (Route.ofPath path) = .ok p) : p = placeOf path :=
  eq_foldl_of_foldlM_step (follow_eq_ok_iff.1 h).2.1

/-- A path is read if it leads to a file. -/
theorem read_eq_ok_iff {t : FileTree} {path : String} {content : ByteArray} :
    t.read path = .ok content ↔
      ∃ p, t.follow (Route.ofPath path) = .ok p ∧ t.entry? p = some (.file content) := by
  unfold read
  rw [except_bind_eq_ok]
  refine exists_congr fun p => and_congr_right fun _ => ?_
  cases t.entry? p with
  | none => simp
  | some e => cases e <;> simp [pure, Except.pure]

/-- A file that is not the one that is written is read as before. -/
theorem read_of_write {t u : FileTree} {path other : String} {content bytes : ByteArray}
    {device : Device} (h : t.write path content device = (u, none))
    (hother : (placeOf other).text ≠ (placeOf path).text) (hread : t.read other = .ok bytes) :
    u.read other = .ok bytes := by
  obtain ⟨hdirectories, p, hholds, hothers⟩ := write_eq_none h
  obtain ⟨q, hfollow, hentry⟩ := read_eq_ok_iff.1 hread
  refine read_eq_ok_iff.2 ⟨q, follow_of_directories hdirectories hfollow, ?_⟩
  have hnames : q.names ≠ [] := names_ne_nil_of_entry?_ne (t := t) (by simp [hentry])
  have hkey : q.text ≠ p.text := by
    rwa [eq_placeOf_of_follow hfollow, eq_placeOf_of_follow hholds.follow]
  rw [entry?_of_names_ne_nil hnames] at hentry ⊢
  rcases hothers q.text hkey with hstays | ⟨hnone, -⟩
  · rw [hstays, hentry]
  · simp [hentry] at hnone

theorem readText_of_write {t u : FileTree} {path other text : String} {content : ByteArray}
    {device : Device} (h : t.write path content device = (u, none))
    (hother : (placeOf other).text ≠ (placeOf path).text) (hread : t.readText other = .ok text) :
    u.readText other = t.readText other := by
  obtain ⟨bytes, hbytes, -⟩ := except_bind_eq_ok.1 hread
  rw [readText, readText, hbytes, read_of_write h hother hbytes]

/-! ## Directories that are there -/

/-- Where a path leads somewhere, everything before its last part is a directory. -/
theorem checkWay_of_follow {t : FileTree} {isAbsolute : Bool} {parts : List String} {p : Place}
    (h : t.follow ⟨isAbsolute, parts, false⟩ = .ok p) :
    t.checkWay ⟨isAbsolute, parts, false⟩ = .ok () := by
  unfold checkWay
  split_ifs with hlength
  · obtain ⟨way, last, rfl⟩ : ∃ way last, parts = way ++ [last] :=
      ⟨parts.dropLast, parts.getLast (by rintro rfl; simp at hlength),
        (List.dropLast_append_getLast _).symm⟩
    obtain ⟨hpassable, hfold, -⟩ := follow_eq_ok_iff.1 h
    rw [List.foldlM_append] at hfold
    obtain ⟨d, hway, hlast⟩ := except_bind_eq_ok.1 hfold
    have hpassableWay : Route.Passable ⟨isAbsolute, way, false⟩ := by
      refine ⟨fun hnul => hpassable.characters ?_, fun hlong => hpassable.size ?_, ?_⟩
      · rw [List.any_append, hnul, Bool.true_or]
      · simp only [Route.size, List.foldl_append, List.foldl_cons, List.foldl_nil] at hlong ⊢
        omega
      · have hne : way ≠ [] := by
          rintro rfl
          simp at hlength
        simp [hne]
    have hfollow : t.follow ⟨isAbsolute, way, false⟩ = .ok d :=
      follow_eq_ok_iff.2 ⟨hpassableWay, hway, by simp⟩
    rw [List.dropLast_concat]
    obtain ⟨_, hstep, -⟩ := except_bind_eq_ok.1 hlast
    obtain ⟨_, hcheck, -⟩ := except_bind_eq_ok.1 hstep
    exact except_bind_eq_ok.2 ⟨d, hfollow, hcheck⟩
  · rfl

/-- A directory that is there is not made again. -/
theorem makeDirectory_of_isDirectory {t : FileTree} {isAbsolute : Bool} {parts : List String}
    (h : t.isDirectory ⟨isAbsolute, parts, false⟩ = true) (device : Device) :
    t.makeDirectory device ⟨isAbsolute, parts, false⟩ = .error .alreadyExists := by
  obtain ⟨p, hfollow, hp⟩ := isDirectory_iff.1 h
  unfold makeDirectory
  dsimp only
  split
  · rw [checkWay_of_follow hfollow]
    rfl
  · rw [hfollow]
    simp only [bind, Except.bind, hp]

/-- No directory is made where one is. -/
theorem makeDirectories_of_isDirectory {t : FileTree} {r : Route} (h : t.isDirectory r = true)
    (hopen : r.isOpen = false) (device : Device) :
    t.makeDirectories device r.isAbsolute r.parts.reverse = (t, none) := by
  obtain ⟨isAbsolute, parts, isOpen⟩ := r
  obtain rfl : isOpen = false := hopen
  cases hparts : parts.reverse with
  | nil => rfl
  | cons name outer =>
    have hr : (name :: outer).reverse = parts := by rw [← hparts, List.reverse_reverse]
    rw [makeDirectories, hr]
    simp only [makeDirectory_of_isDirectory h, settle, h, if_true]

/-! ## Writing again -/

theorem isOpen_parent (r : Route) : r.parent.isOpen = false := by
  unfold Route.parent
  split <;> rfl

/-- In a directory that is there a temporary file can be made. -/
theorem createSpare_of_isDirectory {t : FileTree} {directory : Route} {device : Device}
    (hdevice : device.Accepts) (h : t.isDirectory directory = true) :
    ∃ spare, t.entry? spare = none ∧
      t.createSpare device directory = .ok (t.set spare (.file .empty), spare) := by
  obtain ⟨d, hfollow, hd⟩ := isDirectory_iff.1 h
  refine ⟨d.down (device.spare t d), device.unused t d, ?_⟩
  rw [createSpare, hfollow]
  simp only [bind, Except.bind, checkDirectory_eq_ok_iff.2 hd, hdevice.create]
  rfl

theorem erase_set_self (t : FileTree) (p : Place) (e : FileEntry) :
    (t.set p e).erase p = t.erase p :=
  congrArg mk (t.entries.erase_insert_self p.text e)

/-- Where nothing is, nothing is taken away. -/
theorem erase_of_entry?_eq_none {t : FileTree} {p : Place} (h : t.entry? p = none) :
    t.erase p = t :=
  congrArg mk (Table.erase_of_get?_eq_none (get?_of_entry?_eq_none h))

/-- An entry that is there already changes nothing. -/
theorem set_of_get?_eq_some {t : FileTree} {p : Place} {e : FileEntry}
    (h : t.entries.get? p.text = some e) : t.set p e = t :=
  congrArg mk (Table.insert_of_get?_eq_some h)

/-- A temporary file that has the content of a file takes its place and leaves no trace. -/
theorem persist_of_holds {t : FileTree} {path : String} {content : ByteArray} {p spare : Place}
    {device : Device} (hdevice : device.Accepts) (h : t.Holds path content p)
    (hunused : t.entry? spare = none) :
    (t.set spare (.file .empty)).persist device spare (Route.ofPath path) content = (t, none) := by
  let w := (t.set spare (.file .empty)).set spare (.file content)
  have hw : ∀ key, key ≠ spare.text → w.entries.get? key = t.entries.get? key :=
    fun key hkey => (get?_set_of_ne hkey).trans (get?_set_of_ne hkey)
  have hget := get?_of_entry?_eq_file h.entry
  have hne : p.text ≠ spare.text := by
    intro heq
    rw [heq, get?_of_entry?_eq_none hunused] at hget
    simp at hget
  have hspare : w.entry? spare = some (.file content) :=
    entry?_set_self (names_ne_nil_of_entry?_ne (t := t) (by simp [hunused])) _
  have htarget : w.target (Route.ofPath path) = .ok p := by
    refine target_of_directories (fun q => directories_of_get?_eq hunused hw) h.target ?_
    rw [entry?_of_names_ne_nil (names_ne_nil_of_entry?_ne (t := t) (by simp [h.entry])),
      hw p.text hne, hget]
    simp
  have hrename : w.rename device spare (Route.ofPath path) = .ok t := by
    rw [rename, htarget]
    simp only [bind, Except.bind, hdevice.rename, hspare]
    rw [erase_set_self, erase_set_self, erase_of_entry?_eq_none hunused, set_of_get?_eq_some hget]
    rfl
  have hfill : (t.set spare (.file .empty)).fill device spare content = (w, none) := by
    rw [fill, hdevice.fill, hdevice.flush]
  simp only [persist, hfill, hrename]

/-- Writing what a file holds already changes nothing. -/
theorem write_of_holds {t : FileTree} {path : String} {content : ByteArray} {p : Place}
    {device : Device} (hdevice : device.Accepts) (h : t.Holds path content p) :
    t.write path content device = (t, none) := by
  obtain ⟨spare, hunused, hspare⟩ := createSpare_of_isDirectory hdevice h.way
  rw [write]
  simp only [makeDirectories_of_isDirectory h.way (isOpen_parent _), hspare,
    persist_of_holds hdevice h hunused]

theorem write_of_write {t u : FileTree} {path : String} {content : ByteArray}
    {device again : Device} (hagain : again.Accepts)
    (h : t.write path content device = (u, none)) : u.write path content again = (u, none) := by
  obtain ⟨-, p, hholds, -⟩ := write_eq_none h
  exact write_of_holds hagain hholds

end FileTree

/-! ## Building again -/

/-- All files that settings name as inputs. -/
def Settings.inputs (s : Settings) : List String :=
  s.errors ++ s.operations ++ s.services ++ s.schemas

theorem map_snd_descriptors (s : Settings) :
    s.descriptors.map Prod.snd = s.errors ++ s.operations ++ s.services := by
  simp [Settings.descriptors, Function.comp_def]

section Congr

variable {t u : FileTree}

/-- Descriptors with the same texts are loaded alike. -/
theorem loadSources_congr {descriptors : List (Kind × String)}
    (h : ∀ d ∈ descriptors, u.readText d.2 = t.readText d.2) :
    loadSources u descriptors = loadSources t descriptors := by
  induction descriptors with
  | nil => rfl
  | cons d rest ih =>
    obtain ⟨hd, hrest⟩ := List.forall_mem_cons.1 h
    rw [loadSources, loadSources, loadSource, loadSource, hd, ih hrest]

theorem loadAllSchemas_congr {paths : List String}
    (h : ∀ path ∈ paths, u.readText path = t.readText path) (r : Registry) :
    loadAllSchemas u r paths = loadAllSchemas t r paths := by
  induction paths generalizing r with
  | nil => rfl
  | cons path rest ih =>
    obtain ⟨hpath, hrest⟩ := List.forall_mem_cons.1 h
    simp only [loadAllSchemas, loadSchemas, hpath, ih hrest]

/-- A build depends on nothing in a tree but the texts of its inputs. -/
theorem build_congr {s : Settings} (h : ∀ path ∈ s.inputs, u.readText path = t.readText path) :
    build u s = build t s := by
  have hdescriptors : ∀ d ∈ s.descriptors, u.readText d.2 = t.readText d.2 := by
    intro d hd
    refine h d.2 (List.mem_append_left _ ?_)
    rw [← map_snd_descriptors]
    exact List.mem_map_of_mem hd
  have hschemas : ∀ path ∈ s.schemas, u.readText path = t.readText path :=
    fun path hpath => h path (List.mem_append_right _ hpath)
  simp only [build, loadSources_congr hdescriptors, loadAllSchemas_congr hschemas]

end Congr

/-- A build that succeeds has read all its inputs. -/
theorem exists_text_of_build {t : FileTree} {s : Settings} {c : Compiled}
    (h : (build t s).result = .ok c) {path : String} (hpath : path ∈ s.inputs) :
    ∃ text, t.readText path = .ok text := by
  obtain ⟨-, sources, documents, hinputs, -⟩ := build_eq_ok_iff.1 h
  rw [Settings.inputs, ← map_snd_descriptors, ← hinputs.descriptors, ← hinputs.schemas,
    List.map_map, List.mem_append] at hpath
  rcases hpath with horigin | hname
  · obtain ⟨source, hsource, rfl⟩ := List.mem_map.1 horigin
    exact ⟨source.text, hinputs.texts source hsource⟩
  · obtain ⟨document, hdocument, rfl⟩ := List.mem_map.1 hname
    exact ⟨document.2, (hinputs.isSchemas document hdocument).text⟩

/-! ## Compiling again -/

/-- A contract is written as one file. -/
theorem write_of_writeContract {t u : FileTree} {output : String} {c : Compiled} {device : Device}
    {run : Run Report} {report : Report} (h : writeContract t output c device = (u, run))
    (hrun : run.result = .ok report) :
    t.write output (Contract.render c.document).toUTF8 device = (u, none) := by
  unfold writeContract at h
  dsimp only at h
  split at h
  · obtain ⟨-, rfl⟩ := Prod.mk.inj h
    simp [Run.fail] at hrun
  · next v hwrite => rw [hwrite, (Prod.mk.inj h).1]

/-- What is said about a contract that is written depends on nothing but how writing ends. -/
theorem writeContract_congr {t u : FileTree} {output : String} {c : Compiled}
    {device again : Device}
    (h : u.write output (Contract.render c.document).toUTF8 again =
      t.write output (Contract.render c.document).toUTF8 device) :
    writeContract u output c again = writeContract t output c device := by
  simp only [writeContract, h]

/-- Compiling again, once a compilation has succeeded, comes to the same and changes nothing. -/
theorem compile_of_compile {t u : FileTree} {s : Settings} {device again : Device}
    {run : Run Report} {report : Report} (hagain : again.Accepts)
    (houtput : ∀ path ∈ s.inputs,
      (FileTree.placeOf path).text ≠ (FileTree.placeOf s.output).text)
    (h : compile t s device = (u, run)) (hrun : run.result = .ok report) :
    compile u s again = (u, run) := by
  cases hbuilt : (build t s).result with
  | error e =>
    rw [compile_of_build_error device hbuilt] at h
    obtain ⟨-, rfl⟩ := Prod.mk.inj h
    simp at hrun
  | ok c =>
    by_cases hdenied : s.warnings.denies c.findings = true
    · rw [compile_of_denied device hbuilt hdenied] at h
      obtain ⟨-, rfl⟩ := Prod.mk.inj h
      simp at hrun
    · rw [compile_of_not_denied device hbuilt hdenied] at h
      cases hfirst : writeContract t s.output c device with
      | mk v written =>
        rw [hfirst] at h
        obtain ⟨rfl, rfl⟩ := Prod.mk.inj h
        have hwrite := write_of_writeContract hfirst hrun
        have hsecond := writeContract_congr ((FileTree.write_of_write hagain hwrite).trans
          hwrite.symm)
        have hbuild : build v s = build t s := by
          refine build_congr fun path hpath => ?_
          obtain ⟨text, htext⟩ := exists_text_of_build hbuilt hpath
          exact FileTree.readText_of_write hwrite (houtput path hpath) htext
        rw [← hbuild] at hbuilt ⊢
        rw [compile_of_not_denied again hbuilt hdenied, hsecond, hfirst]

/-- A descriptor with one service. -/
def loneService : List Source := [⟨.services, "s", "<s><service name='A'/></s>"⟩]

/-- The contract goes to a directory that is not there the first time. -/
theorem compile_of_compile_newDirectory :
    let t := FileTree.ofTexts (loneService.map fun s => (s.origin, s.text))
    let s : Settings := { Settings.default with services := ["s"], output := "d/c" }
    Device.reliable.Accepts ∧
      (∀ path ∈ s.inputs,
        (FileTree.placeOf path).text ≠ (FileTree.placeOf s.output).text) ∧
      ∃ u run report, compile t s Device.reliable = (u, run) ∧ run.result = .ok report ∧
        compile u s Device.reliable = (u, run) := by
  intro t s
  have hinput : Route.ofPath "s" = ⟨false, ["s"], false⟩ := by decide
  have houtput : Route.ofPath "d/c" = ⟨false, ["d", "c"], false⟩ := by decide
  have hinputs : Inputs t s loneService [] :=
    { descriptors := rfl
      texts := by
        rw [loneService, List.forall_mem_singleton]
        exact FileTree.readText_of_entry? hinput rfl rfl
      wellFormed := by decide +kernel
      schemas := rfl
      isSchemas := by simp }
  have hbuilt := build_eq_ok_iff.2 ⟨List.cons_ne_nil _ _, loneService, [], hinputs, rfl⟩
  have hplaces : ∀ path ∈ s.inputs,
      (FileTree.placeOf path).text ≠ (FileTree.placeOf s.output).text := by
    intro path hpath
    obtain rfl := List.mem_singleton.1 hpath
    rw [FileTree.placeOf, FileTree.placeOf, hinput, houtput]
    decide +kernel
  have hwrite : ∀ content, (t.write s.output content).2 = none := by
    intro content
    rw [FileTree.write, houtput]
    rfl
  let c := Compiled.ofRegistry (Registry.ofInputs loneService []) s.style
  obtain ⟨u, hu⟩ : ∃ u, t.write s.output (Contract.render c.document).toUTF8 = (u, none) :=
    ⟨_, Prod.ext rfl (hwrite _)⟩
  have hcompiled := compile_of_not_denied Device.reliable hbuilt Bool.false_ne_true
  rw [writeContract, hu] at hcompiled
  exact ⟨Device.accepts_reliable, hplaces, u, _, _, hcompiled, rfl,
    compile_of_compile Device.accepts_reliable hplaces hcompiled rfl⟩

end ServiceContract
