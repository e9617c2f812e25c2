/-
A tree of files keeps what is written to it.

Where a path leads depends on the folders that it goes through. A file is made
where there was a file or nothing, and so it puts no folder in the way and takes
none away: a path that could be followed can be followed as before, and the file
that has just been written is at the end of its own path.
-/
import FormulaSheet.Files.Tree

set_option autoImplicit false

namespace FormulaSheet.Files

/-! ## Places -/

namespace Place

variable {names inner : List String} {found : Option Entry}

/-- The place under some names, by what is among the entries there. -/
def ofEntry (names : List String) : Option Entry → Place
  | some .folder => folder names
  | some (.file content) => file names content
  | none => vacant names

theorem ofEntry_eq_folder_iff :
    ofEntry names found = folder inner ↔ found = some .folder ∧ names = inner := by
  rcases found with _ | (content | _) <;> simp [ofEntry]

/-- The names of a place where a file is or could be made. -/
def site? : Place → Option (List String)
  | folder _ => none
  | file names _ => some names
  | vacant names => some names

theorem site?_ofEntry_eq_some_iff :
    (ofEntry names found).site? = some inner ↔ found ≠ some .folder ∧ names = inner := by
  rcases found with _ | (content | _) <;> simp [ofEntry, site?]

/-- A place after the file at some names has been given new bytes. -/
def refilled (site : List String) (content : ByteArray) : Place → Place
  | file names old => file names (if names = site then content else old)
  | place => place

end Place

namespace Tree

variable {t t' : Tree} {folder inner names path : List String} {name : String} {place : Place}
  {content : ByteArray}

/-! ## Names and paths after an insertion -/

theorem getElem?_insert (t : Tree) (names names' : List String) (e : Entry) :
    (t.insert names e).entries[names']?
      = if names = names' then some e else t.entries[names']? := by
  simp [insert, Std.ExtTreeMap.getElem?_insert]

/-- A name is made of dots, or too long, or stands for what is there. -/
theorem look_cases (folder : List String) (name : String) :
    (∃ result, (∀ t : Tree, t.look folder name = result) ∧
        ∀ place, result = .ok place → place.site? = none) ∨
      ∀ t : Tree, t.look folder name
        = .ok (.ofEntry (folder ++ [name]) t.entries[folder ++ [name]]?) := by
  by_cases hdot : name = "."
  · exact .inl ⟨.ok (.folder folder), fun t => by simp [look, hdot], by rintro _ ⟨⟩; rfl⟩
  by_cases hdots : name = ".."
  · exact .inl ⟨.ok (.folder folder.dropLast), fun t => by simp [look, hdots], by rintro _ ⟨⟩; rfl⟩
  by_cases hlong : nameLimit < name.utf8ByteSize
  · exact .inl ⟨.error .nameTooLong, fun t => by simp [look, hdot, hdots, hlong], nofun⟩
  · refine .inr fun t => ?_
    simp only [look, beq_iff_eq, if_neg hdot, if_neg hdots, if_neg hlong]
    rcases t.entries[folder ++ [name]]? with _ | (content | _) <;> rfl

/-- The same names stand for folders before and after a file has been put where there is no
folder. -/
theorem look_insert_eq_folder_iff (hnames : t.entries[names]? ≠ some .folder) :
    (t.insert names (.file content)).look folder name = .ok (.folder inner)
      ↔ t.look folder name = .ok (.folder inner) := by
  rcases look_cases folder name with ⟨result, hlook, -⟩ | hlook
  · rw [hlook, hlook]
  · rw [hlook, hlook, Except.ok.injEq, Except.ok.injEq, Place.ofEntry_eq_folder_iff,
      Place.ofEntry_eq_folder_iff, getElem?_insert]
    by_cases hsame : names = folder ++ [name]
    · subst hsame
      simp [hnames]
    · rw [if_neg hsame]

/-- The same paths can be followed before and after that. -/
theorem follow_insert_iff (hnames : t.entries[names]? ≠ some .folder) :
    (t.insert names (.file content)).follow folder path = .ok inner
      ↔ t.follow folder path = .ok inner := by
  have hstep (t : Tree) (folder : List String) (name : String) (rest : List String) :
      t.follow folder (name :: rest) = .ok inner ↔
        ∃ next, t.look folder name = .ok (.folder next) ∧ t.follow next rest = .ok inner := by
    unfold follow
    rcases t.look folder name with e | (next | ⟨_, _⟩ | _) <;> simp [← follow.eq_def]
  induction path generalizing folder with
  | nil => rfl
  | cons name rest ih =>
    rw [hstep, hstep]
    simp only [look_insert_eq_folder_iff hnames, ih]

/-- The same names stand for a place where a file is or could be made. -/
theorem look_insert_site_iff (hnames : t.entries[names]? ≠ some .folder) {site : List String} :
    (∃ place, (t.insert names (.file content)).look folder name = .ok place ∧
        place.site? = some site)
      ↔ ∃ place, t.look folder name = .ok place ∧ place.site? = some site := by
  rcases look_cases folder name with ⟨result, hlook, -⟩ | hlook
  · rw [hlook, hlook]
  · simp only [hlook, Except.ok.injEq, exists_eq_left', Place.site?_ofEntry_eq_some_iff,
      getElem?_insert]
    by_cases hsame : names = folder ++ [name]
    · subst hsame
      simp [hnames]
    · rw [if_neg hsame]

/-- A file that is put where a name stands for a file or for nothing is what the name stands for
then. -/
theorem look_insert_self (content : ByteArray) (h : t.look folder name = .ok place)
    (hsite : place.site? = some names) :
    t.entries[names]? ≠ some .folder ∧
      (t.insert names (.file content)).look folder name = .ok (.file names content) := by
  rcases look_cases folder name with ⟨result, hlook, hnone⟩ | hlook
  · rw [hlook] at h
    rw [hnone place h] at hsite
    cases hsite
  · rw [hlook, Except.ok.injEq] at h
    rw [← h, Place.site?_ofEntry_eq_some_iff] at hsite
    obtain ⟨hentry, rfl⟩ := hsite
    rw [hlook, getElem?_insert, if_pos rfl]
    exact ⟨hentry, rfl⟩

/-! ## Written files -/

/-- A path to which a file can be written goes through folders to a name where a file is or could be
made. -/
theorem destination_eq_ok_iff {path : String} :
    t.destination path = .ok names ↔ ∃ r folder last, t.route path = .ok r ∧ r.slash = false ∧
      t.follow r.start r.names.dropLast = .ok folder ∧ r.names.getLast? = some last ∧
      ∃ place, t.look folder last = .ok place ∧ place.site? = some names := by
  unfold destination
  cases hroute : t.route path with
  | error e => simp
  | ok r =>
    cases hfollow : t.follow r.start r.names.dropLast with
    | error e => simp [hfollow]
    | ok folder =>
      cases hlast : r.names.getLast? with
      | none => simp [hfollow, hlast]
      | some last =>
        cases hslash : r.slash with
        | true => simp [hfollow, hlast, hslash]
        | false =>
          cases hlook : t.look folder last with
          | error e => simp [hfollow, hlast, hslash, hlook]
          | ok place => cases place <;> simp [hfollow, hlast, hslash, hlook, Place.site?]

/-- A file that is put where there is no folder takes no path to another destination. -/
theorem destination_insert_iff (hnames : t.entries[names]? ≠ some .folder) {path : String}
    {site : List String} :
    (t.insert names (.file content)).destination path = .ok site
      ↔ t.destination path = .ok site := by
  -- the way to a file depends on the working folder, which stays
  have hroute : (t.insert names (.file content)).route path = t.route path := rfl
  rw [destination_eq_ok_iff, destination_eq_ok_iff, hroute]
  simp only [follow_insert_iff hnames, look_insert_site_iff hnames]

/-- No folder stands where a path leads that can be written to. -/
theorem entries_ne_folder_of_destination {path : String} (h : t.destination path = .ok names) :
    t.entries[names]? ≠ some .folder := by
  obtain ⟨_, _, _, -, -, -, -, place, hlook, hsite⟩ := destination_eq_ok_iff.mp h
  exact (look_insert_self .empty hlook hsite).1

/-- A file at the place where a path leads is found under the path. -/
theorem locate_of_destination {path : String} (h : t.destination path = .ok names)
    (hentry : t.entries[names]? = some (.file content)) :
    t.locate path = .ok (.file names content) := by
  obtain ⟨r, folder, last, hroute, hslash, hfollow, hlast, place, hlook, hsite⟩ :=
    destination_eq_ok_iff.mp h
  have hfile : t.look folder last = .ok (.file names content) := by
    rcases look_cases folder last with ⟨result, hlook', hnone⟩ | hlook'
    · cases (hnone place ((hlook' t).symm.trans hlook)).symm.trans hsite
    · obtain rfl := Except.ok.inj ((hlook' t).symm.trans hlook)
      obtain ⟨-, rfl⟩ := Place.site?_ofEntry_eq_some_iff.mp hsite
      rw [hlook', hentry]
      rfl
  simp only [locate, hroute, hslash, Bool.false_eq_true, if_false, hfollow, hlast, hfile]

/-- To write to a path is to put a file where it leads. -/
theorem exists_destination_of_write {path : String} (h : t.write path content = .ok t') :
    ∃ site, t.destination path = .ok site ∧ t' = t.insert site (.file content) := by
  unfold write at h
  cases hdestination : t.destination path with
  | error e =>
    rw [hdestination] at h
    cases h
  | ok site =>
    rw [hdestination] at h
    exact ⟨site, rfl, (Except.ok.inj h).symm⟩

/-- What is written takes no path to another place. -/
theorem destination_write_iff {path other : String} {site : List String}
    (h : t.write path content = .ok t') :
    t'.destination other = .ok site ↔ t.destination other = .ok site := by
  obtain ⟨names, hdestination, rfl⟩ := exists_destination_of_write h
  exact destination_insert_iff (entries_ne_folder_of_destination hdestination)

/-- **What has been written to a path is there.** -/
theorem locate_of_write {path : String} (h : t.write path content = .ok t') :
    ∃ names, t'.locate path = .ok (.file names content) := by
  have hkept (site : List String) : t'.destination path = .ok site ↔ t.destination path = .ok site :=
    destination_write_iff h
  obtain ⟨site, hdestination, rfl⟩ := exists_destination_of_write h
  refine ⟨site, locate_of_destination ((hkept site).mpr hdestination) ?_⟩
  rw [getElem?_insert, if_pos rfl]

theorem read_of_locate {path : String} (h : t.locate path = .ok (.file names content)) :
    t.read path = .ok content := by
  simp only [read, h]

theorem read_of_write {path : String} (h : t.write path content = .ok t') :
    t'.read path = .ok content := by
  obtain ⟨names, hlocate⟩ := locate_of_write h
  exact read_of_locate hlocate

theorem size_of_write {path : String} (h : t.write path content = .ok t') :
    t'.size path = .ok content.size := by
  obtain ⟨names, hlocate⟩ := locate_of_write h
  simp only [size, hlocate]

/-! ## Replaced files -/

section Replaced

variable {site : List String} {old new : ByteArray} {path : String}

/-- Where there was a file already, no name changes its kind. -/
theorem look_replace (hsite : t.entries[site]? = some (.file old)) (new : ByteArray)
    (folder : List String) (name : String) :
    (t.insert site (.file new)).look folder name
      = (t.look folder name).map (Place.refilled site new) := by
  rcases look_cases folder name with ⟨result, hlook, hnone⟩ | hlook
  · rw [hlook, hlook]
    cases result with
    | error e => rfl
    | ok place =>
      cases place with
      | folder _ => rfl
      | file names content => cases hnone _ rfl
      | vacant names => rfl
  · rw [hlook, hlook, getElem?_insert]
    by_cases hsame : site = folder ++ [name]
    · rw [if_pos hsame, ← hsame, hsite]
      simp [Place.ofEntry, Except.map, Place.refilled]
    · rw [if_neg hsame]
      rcases t.entries[folder ++ [name]]? with _ | (content | _)
      · rfl
      · simp [Place.ofEntry, Except.map, Place.refilled, Ne.symm hsame]
      · rfl

theorem follow_replace (hsite : t.entries[site]? = some (.file old)) (new : ByteArray)
    (folder names : List String) :
    (t.insert site (.file new)).follow folder names = t.follow folder names := by
  induction names generalizing folder with
  | nil => rfl
  | cons name rest ih =>
    simp only [follow, look_replace hsite]
    rcases t.look folder name with e | (inner | ⟨_, _⟩ | _)
    · rfl
    · exact ih inner
    · rfl
    · rfl

/-- Every path leads where it led, and finds the new bytes there or what was there before. -/
theorem locate_replace (hsite : t.entries[site]? = some (.file old)) (new : ByteArray)
    (path : String) :
    (t.insert site (.file new)).locate path = (t.locate path).map (Place.refilled site new) := by
  have hroute : (t.insert site (.file new)).route path = t.route path := rfl
  unfold locate
  rw [hroute]
  cases t.route path with
  | error e => rfl
  | ok r =>
    simp only [follow_replace hsite, look_replace hsite]
    cases r.slash with
    | true => cases t.follow r.start r.names <;> rfl
    | false =>
      rcases t.follow r.start r.names.dropLast with e | folder
      · rfl
      · cases r.names.getLast? <;> rfl

/-- A path at which a file is found can be written to. -/
theorem destination_of_locate_file {content : ByteArray}
    (h : t.locate path = .ok (.file names content)) :
    t.entries[names]? = some (.file content) ∧ t.destination path = .ok names := by
  unfold locate at h
  cases hroute : t.route path with
  | error e =>
    simp only [hroute] at h
    cases h
  | ok r =>
    cases hslash : r.slash with
    | true =>
      cases hfollow : t.follow r.start r.names <;>
      · simp only [hroute, hslash, if_true, hfollow] at h
        cases h
    | false =>
      cases hfollow : t.follow r.start r.names.dropLast with
      | error e =>
        simp only [hroute, hslash, Bool.false_eq_true, if_false, hfollow] at h
        cases h
      | ok folder =>
        cases hlast : r.names.getLast? with
        | none =>
          simp only [hroute, hslash, Bool.false_eq_true, if_false, hfollow, hlast] at h
          cases h
        | some last =>
          simp only [hroute, hslash, Bool.false_eq_true, if_false, hfollow, hlast] at h
          refine ⟨?_, destination_eq_ok_iff.mpr
            ⟨r, folder, last, hroute, hslash, hfollow, hlast, _, h, rfl⟩⟩
          rcases look_cases folder last with ⟨result, hlook, hnone⟩ | hlook
          · rw [hlook] at h
            cases hnone _ h
          · rw [hlook, Except.ok.injEq] at h
            rcases hentry : t.entries[folder ++ [last]]? with _ | (found | _)
            · rw [hentry] at h
              cases h
            · rw [hentry] at h
              obtain ⟨rfl, rfl⟩ := Place.file.inj h
              exact hentry
            · rw [hentry] at h
              cases h

/-- What can be read is a file. -/
theorem exists_of_read {content : ByteArray} (h : t.read path = .ok content) :
    ∃ names, t.locate path = .ok (.file names content) := by
  unfold read at h
  rcases hlocate : t.locate path with e | (_ | ⟨names, found⟩ | _)
  · simp only [hlocate] at h
    cases h
  · simp only [hlocate] at h
    cases h
  · simp only [hlocate, Except.ok.injEq] at h
    exact ⟨names, by rw [h]⟩
  · simp only [hlocate] at h
    cases h

/-- To replace the bytes of a file makes no file appear or disappear. -/
theorem found_replace (hsite : t.entries[site]? = some (.file old)) (new : ByteArray)
    (path : String) : (t.insert site (.file new)).found path = t.found path := by
  unfold found
  rw [locate_replace hsite]
  rcases t.locate path with e | (_ | ⟨_, _⟩ | _) <;> rfl

/-- A file that is not the one replaced is read as before. -/
theorem read_size_replace_of_ne (hsite : t.entries[site]? = some (.file old)) (new : ByteArray)
    {content : ByteArray} (h : t.locate path = .ok (.file names content)) (hne : names ≠ site) :
    (t.insert site (.file new)).read path = t.read path ∧
      (t.insert site (.file new)).size path = t.size path := by
  have hlocate : (t.insert site (.file new)).locate path = t.locate path := by
    rw [locate_replace hsite, h, Except.map, Place.refilled, if_neg hne]
  exact ⟨by rw [read, read, hlocate], by rw [size, size, hlocate]⟩

end Replaced

/-! ## Files beside one another -/

section Beside

variable {path other : String} {old : ByteArray}

/-- Two paths lead to one place. -/
def SamePlace (t : Tree) (path other : String) : Prop :=
  ∃ site, t.destination path = .ok site ∧ t.destination other = .ok site

/-- What is written elsewhere leaves a file as it is. -/
theorem read_of_write_elsewhere (h : t.write path content = .ok t')
    (helsewhere : ¬ t.SamePlace other path) (hread : t.read other = .ok old) :
    t'.read other = .ok old := by
  obtain ⟨names, hlocate⟩ := exists_of_read hread
  obtain ⟨hentry, hother⟩ := destination_of_locate_file hlocate
  have hother' := (destination_write_iff h).mpr hother
  obtain ⟨site, hsite, rfl⟩ := exists_destination_of_write h
  have hne : site ≠ names := by
    rintro rfl
    exact helsewhere ⟨site, hother, hsite⟩
  refine read_of_locate (locate_of_destination hother' ?_)
  rwa [getElem?_insert, if_neg hne]

end Beside

end Tree

end FormulaSheet.Files
