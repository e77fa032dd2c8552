import NovelScript.Proofs.Archive.Refinement

/-!
# What a second reader finds in the file

Once a flush or a packing has succeeded in flush mode, the index in the file lists the files of the
open archive, and a second reader finds these files or is refused.  It is refused exactly if an
empty file is said to be behind the end of the file (`Reachable.load_iff`): contents without octets
have a place in no region, so a later save may cut the file off in front of them.  Packing puts
every file in its place.
-/

namespace NovelScript

variable {mode : SaveMode} {encoding : Encoding} {catalog : Catalog} {session : Session}
  {archive : Archive} {file : Bytes}

/-! ## Archives without changes -/

namespace Archive

/-- Unless contents are kept in memory, all files are in the file under the archive. -/
theorem Intact.located (h : archive.Intact file mode encoding catalog) (hmode : mode ≠ .explicit) :
    Located encoding file archive.files := by
  intro m hm
  obtain ⟨hm, hfile⟩ := List.mem_filter.mp hm
  have hheld := h.laid.held m hm
  refine ⟨h.laid.survive m hm, ?_⟩
  cases hresidence : m.residence with
  | created => simp [Member.isCreated, hresidence] at hfile
  | buffered unknown octets => exact absurd hresidence (h.unbuffered hmode m hm unknown octets)
  | stored entry =>
    simp only [Member.Held, hresidence] at hheld
    obtain ⟨octets, -, hlocates⟩ := hheld
    have hentry : m.entry = entry := by rw [Member.entry, hresidence]
    rw [hentry]
    exact ⟨rfl, octets, hlocates⟩

/-- Only the entry of an empty file can name a place outside the file. -/
theorem dataEnd_le_iff (h : Located encoding file archive.files) :
    (∀ m ∈ archive.files, m.entry.dataEnd ≤ file.length) ↔
      ∀ m ∈ archive.files, m.contents file = .ok [] → m.entry.dataOffset.toNat ≤ file.length := by
  refine forall_congr' fun m => forall_congr' fun hm => ?_
  obtain ⟨-, hstored, octets, hlocates⟩ := h m hm
  have hcontents : m.contents file = .ok octets := by
    rw [Member.contents, hstored]
    exact hlocates.data
  have hlength := (region_eq_ok_iff.mp hlocates.data).1
  rw [hcontents]
  constructor
  · intro hend _
    exact Nat.le_trans (Nat.le_add_right _ _) hend
  · intro hempty
    by_cases hpos : 0 < m.entry.dataLength.toNat
    · exact le_of_region_eq_ok hlocates.data hpos
    · have hnil : octets = [] := List.eq_nil_of_length_eq_zero (by omega)
      have hoffset := hempty (by rw [hnil])
      rw [IndexEntry.dataEnd]
      omega

/-- A file that lists the files of an archive is read as an archive of the same files. -/
theorem Intact.load_eq (h : archive.Intact file mode encoding catalog) (hmode : mode ≠ .explicit)
    (hlisted : archive.ListedIn file)
    (hinside : ∀ m ∈ archive.files, m.entry.dataEnd ≤ file.length) (path : String)
    (mode' : SaveMode) :
    load path mode' encoding file = { result := .ok {
      path, encoding
      mode := mode'
      header := archive.header
      members := archive.files.map Member.fresh } } := by
  obtain ⟨hend, hindex⟩ := hlisted
  have hunique : (archive.files.map (·.name)).Nodup :=
    h.laid.unique.sublist (List.filter_sublist.map _)
  rw [load, readIndex_of_listed h.indexed.header h.indexed.version h.indexed.headerSize hend hindex
    (h.located hmode) hunique hinside]
  rfl

theorem Intact.load_eq_error (h : archive.Intact file mode encoding catalog)
    (hmode : mode ≠ .explicit) (hlisted : archive.ListedIn file)
    (houtside : ∃ m ∈ archive.files, file.length < m.entry.dataEnd) (path : String)
    (mode' : SaveMode) :
    ∃ offset, (load path mode' encoding file).result
      = .error (.corrupt (.entryOutside offset)) := by
  obtain ⟨hend, hindex⟩ := hlisted
  obtain ⟨offset, hresult⟩ := readIndex_of_outside h.indexed.header h.indexed.version
    h.indexed.headerSize hend hindex (h.located hmode) houtside
  refine ⟨offset, ?_⟩
  simp only [load, hresult]
  rfl

/-- Read without handles, files are the same files. -/
theorem files_map_fresh (members : List Member) (hstored : ∀ m ∈ members, m.isCreated = false) :
    (members.map Member.fresh).filter (!·.isCreated) = members.map Member.fresh := by
  refine List.filter_eq_self.mpr fun m hm => ?_
  obtain ⟨o, ho, rfl⟩ := List.mem_map.mp hm
  have hcreated : o.fresh.isCreated = o.isCreated := Member.isCreated_of_core_eq rfl
  rw [hcreated, hstored o ho]
  rfl

/-- Whoever reads the file finds the files of the archive, all of them inside it. -/
theorem Intact.files_of_load (h : archive.Intact file mode encoding catalog)
    (hmode : mode ≠ .explicit) (hlisted : archive.ListedIn file) {path : String} {mode' : SaveMode}
    {reopened : Archive} (hok : (load path mode' encoding file).result = .ok reopened) :
    (∀ m ∈ archive.files, m.entry.dataEnd ≤ file.length)
      ∧ reopened.files.map (fun m => (m.name, m.contents file))
        = archive.files.map fun m => (m.name, m.contents file) := by
  have hinside : ∀ m ∈ archive.files, m.entry.dataEnd ≤ file.length := by
    intro m hm
    refine Nat.not_lt.mp fun hlt => ?_
    obtain ⟨offset, hrefused⟩ := h.load_eq_error hmode hlisted ⟨m, hm, hlt⟩ path mode'
    rw [hok] at hrefused
    cases hrefused
  refine ⟨hinside, ?_⟩
  have hfiles : ∀ m ∈ archive.files, m.isCreated = false := by
    intro m hm
    simpa using (List.mem_filter.mp hm).2
  rw [h.load_eq hmode hlisted hinside path mode'] at hok
  obtain rfl := Except.ok.inj hok
  simp only [files] at hfiles ⊢
  rw [files_map_fresh _ hfiles, List.map_map]
  rfl

end Archive

/-! ## Flushing and packing -/

/-- The operations after which the file shows all changes. -/
def Operation.settles : Operation → Bool
  | flush | compact => true
  | _ => false

/-- Whether the operation may pack an archive of this mode. -/
def Operation.mayPack (mode : SaveMode) : Operation → Bool
  | flush => mode == .explicit
  | compact => mode != .immediate
  | _ => false

theorem Operation.mayPack_explicit (op : Operation) : op.mayPack .explicit = op.settles := by
  cases op with
  | flush | compact => rfl
  | _ => rfl

/-- Outside explicit mode, an archive has no changes once it is flushed or packed. -/
theorem Operation.settled (h : session.Sound .flush encoding catalog archive file) {op : Operation}
    (hop : op.settles = true) :
    Ends op.work session
      (fun _ after => (∀ file, after.file = some file → Fits file) →
        ∃ archive file, after.Sound .flush encoding catalog archive file ∧ archive.dirty = false
          ∧ (op = .compact → ∀ m ∈ archive.files, m.entry.dataEnd ≤ file.length))
      anyFailure := by
  cases op with
  | flush =>
    simp only [work, ends_bind, ends_pure]
    rw [Work.ends_on h.archive_eq h.file_eq]
    refine (Change.flush_spec h.intact).mono ?_ fun _ _ _ => trivial
    rintro _ store ⟨hleaves, hdirty⟩ hfits
    have hsound := Session.sound_withStore (hleaves (hfits _ rfl)) h.sorted h.writes
    exact ⟨_, _, hsound, hdirty (by decide), fun hcompact => by cases hcompact⟩
  | compact =>
    simp only [work, ends_bind, ends_pure]
    rw [Work.ends_on h.archive_eq h.file_eq]
    refine (Change.compact_spec h.intact).mono ?_ fun _ _ _ => trivial
    rintro _ store ⟨hleaves, hdirty, hinside⟩ hfits
    have hsound := Session.sound_withStore (hleaves (hfits _ rfl)) h.sorted h.writes
    exact ⟨_, _, hsound, hdirty, fun _ => hinside (by decide) (hfits _ rfl)⟩
  | _ => cases hop

/-- **A second reader finds what was flushed, or is refused for an empty file.**  Once a flush or a
packing has succeeded in flush mode, the file is read as an archive exactly if no empty file is said
to be behind its end.  Whoever reads it finds the files of the open archive in their order and with
their contents, and after packing it is always read. -/
theorem Reachable.load_iff {op : Operation} {after : Session} {answer : Bool}
    (h : Reachable .flush encoding session catalog) (hop : op.settles = true)
    (hleads : op.Leads encoding session (.ok answer) after) (path : String) (mode' : SaveMode) :
    ∃ archive file, after.archive = some archive ∧ after.file = some file
      ∧ ((∃ reopened, (Archive.load path mode' encoding file).result = .ok reopened) ↔
          ∀ m ∈ archive.files, m.contents file = .ok [] →
            m.entry.dataOffset.toNat ≤ file.length)
      ∧ (∀ reopened, (Archive.load path mode' encoding file).result = .ok reopened →
          reopened.files.map (fun m => (m.name, m.contents file))
            = archive.files.map fun m => (m.name, m.contents file))
      ∧ (op = .compact → ∃ reopened, (Archive.load path mode' encoding file).result
          = .ok reopened) := by
  obtain ⟨archive₀, file₀, hsound₀, -⟩ := h.sound
  have hends := (Operation.settled hsound₀ hop).of_run hleads.run
  obtain ⟨archive, file, hsound, hdirty, hpacked⟩ := hends.1 answer rfl hleads.fits
  -- flush mode leaves every file in its place, and the index lists them all
  have hintact := hsound.intact
  have hmode : SaveMode.flush ≠ .explicit := by decide
  have hlisted := hintact.indexed.listed (by rw [hintact.mode_eq]; decide) hdirty
  have hlocated := hintact.located hmode
  refine ⟨archive, file, hsound.archive_eq, hsound.file_eq, ?_, ?_, ?_⟩
  · rw [← Archive.dataEnd_le_iff hlocated]
    constructor
    · rintro ⟨reopened, hok⟩
      exact (hintact.files_of_load hmode hlisted hok).1
    · intro hinside
      rw [hintact.load_eq hmode hlisted hinside path mode']
      exact ⟨_, rfl⟩
  · intro reopened hok
    exact (hintact.files_of_load hmode hlisted hok).2
  · intro hcompact
    rw [hintact.load_eq hmode hlisted (hpacked hcompact) path mode']
    exact ⟨_, rfl⟩

/-- An empty file that was never in front of a cut is read again. -/
theorem Reachable.load_iff_empty : ∃ archive file,
    ((Session.new .flush .utf8).perform Operation.work [.writeAll "a" [], .flush]).archive
        = some archive
      ∧ ((Session.new .flush .utf8).perform Operation.work [.writeAll "a" [], .flush]).file
        = some file
      ∧ ∃ reopened, (Archive.load "data.ykc" .readOnly .utf8 file).result = .ok reopened
        ∧ reopened.files.map (fun m => (m.name, m.contents file))
          = archive.files.map fun m => (m.name, m.contents file) := by
  have hnew : Reachable .flush .utf8 _ Catalog.empty := .new (by decide)
  have hempty := hnew.next (.writeAll "a" []) (survives_of_eq_some (by decide +kernel))
    (by decide +kernel)
  obtain ⟨answer, hleads⟩ := Operation.flush.leads_of_isOk
    ((Session.new .flush .utf8).perform Operation.work [.writeAll "a" []]) rfl
    (by decide +kernel) (by decide +kernel)
  obtain ⟨archive, file, harchive, hfile, -, hsame, -⟩ :=
    hempty.load_iff rfl hleads "data.ykc" .readOnly
  have hread : ((Session.new .flush .utf8).perform Operation.work
      [.writeAll "a" [], .flush]).file.any (fun file =>
        (Archive.load "data.ykc" .readOnly .utf8 file).result.isOk) = true := by decide +kernel
  have hfile' : ((Session.new .flush .utf8).perform Operation.work
      [.writeAll "a" [], .flush]).file = some file := hfile
  rw [hfile', Option.any_some] at hread
  obtain ⟨reopened, hok⟩ := exists_of_isOk hread
  exact ⟨archive, file, harchive, hfile', reopened, hok, hsame reopened hok⟩

/-- A session in which two files are emptied, the last one in the file at the end. -/
def Session.emptied : Session :=
  (Session.new .flush .utf8).perform Operation.work
    [.writeAll "b" [0x78], .writeAll "a" (List.replicate 100 0x61), .writeAll "b" [],
      .writeAll "a" []]

/-- The first of the two is listed behind the end of the file, and no one can read that. -/
theorem not_load_emptying : ∃ catalog answer file,
    Reachable .flush .utf8 Session.emptied catalog
      ∧ Operation.flush.Leads .utf8 Session.emptied (.ok answer)
        (Operation.flush.work.after Session.emptied)
      ∧ (Operation.flush.work.after Session.emptied).file = some file
      ∧ ¬ ∃ reopened, (Archive.load "data.ykc" .readOnly .utf8 file).result = .ok reopened := by
  have ha : ∀ name, some "a" = some name → Encoding.Survives .utf8 name :=
    survives_of_eq_some (by decide +kernel)
  have hb : ∀ name, some "b" = some name → Encoding.Survives .utf8 name :=
    survives_of_eq_some (by decide +kernel)
  have hnew : Reachable .flush .utf8 _ Catalog.empty := .new (by decide)
  have h₁ := hnew.next (.writeAll "b" [0x78]) hb (by decide +kernel)
  have h₂ := h₁.next (.writeAll "a" (List.replicate 100 0x61)) ha (by decide +kernel)
  have h₃ := h₂.next (.writeAll "b" []) hb (by decide +kernel)
  have h₄ := h₃.next (.writeAll "a" []) ha (by decide +kernel)
  obtain ⟨answer, hleads⟩ := Operation.flush.leads_of_isOk Session.emptied rfl
    (by decide +kernel) (by decide +kernel)
  have hrefused : (Operation.flush.work.after Session.emptied).file.any
      (fun file => !(Archive.load "data.ykc" .readOnly .utf8 file).result.isOk) = true := by
    decide +kernel
  obtain ⟨file, hfile, hnot⟩ := (Option.any_eq_true _ _).mp hrefused
  refine ⟨_, answer, file, h₄, hleads, hfile, ?_⟩
  rintro ⟨reopened, hok⟩
  rw [hok] at hnot
  cases hnot

end NovelScript
