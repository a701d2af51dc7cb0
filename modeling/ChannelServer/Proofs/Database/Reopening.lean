import ChannelServer.Proofs.Database.Queue
import ChannelServer.Server

/-!
# Opening a file again

A database in a file is found again where it was.  On the way to it there may now be a file where
there was none before, the database itself, and nothing is below a file; so a path that goes down
from there and up again is followed the first time and not the second time.  That is all that can
happen: the path never leads elsewhere.

## Main results

* `Disk.WithFile.find?`, `Disk.WithFile.find?_again`: where a path leads once there is a file at
  its end.
* `Server.reopened_eq`: what is found when a database is opened again.
* `Server.openDatabase_again`: when it can be opened again.
-/

namespace ChannelServer

namespace Disk

variable {disk disk' : Disk} {path : FilePath}

/-- The second disk is the first one with a file at a path.  What the tables say is left open. -/
structure WithFile (path : FilePath) (disk disk' : Disk) : Prop where
  current : disk'.current = disk.current
  directories : disk'.directories = disk.directories
  sealed : disk'.sealed = disk.sealed
  hasFile_iff : ∀ place, disk'.hasFile place = true ↔ disk.hasFile place = true ∨ place = path

theorem hasFile_eq_true {place : FilePath} :
    disk.hasFile place = true ↔ ∃ file ∈ disk.files, file.1 = place := by
  rw [hasFile, List.any_eq_true]
  simp only [decide_eq_true_iff]

theorem withFile_make (disk : Disk) (path : FilePath) : WithFile path disk (disk.make path) := by
  rw [make]
  split
  · rename_i hpresent
    exact ⟨rfl, rfl, rfl, fun place => ⟨.inl, fun h => h.elim id fun heq => heq ▸ hpresent⟩⟩
  · refine ⟨rfl, rfl, rfl, fun place => ?_⟩
    rw [hasFile_eq_true, hasFile_eq_true, List.exists_mem_cons_iff, or_comm, eq_comm]

/-- A disk that has the file needs no other one. -/
theorem make_of_hasFile (h : disk.hasFile path = true) : disk.make path = disk :=
  if_pos h

theorem hasFile_write (table : Table) {place : FilePath} :
    (disk.write path table).hasFile place = true ↔ disk.hasFile place = true ∨ place = path := by
  rw [hasFile_eq_true, hasFile_eq_true, write, List.exists_mem_cons_iff]
  constructor
  · rintro (heq | ⟨file, hfile, heq⟩)
    · exact .inr heq.symm
    · exact .inl ⟨file, List.mem_of_mem_filter hfile, heq⟩
  · rintro (⟨file, hfile, rfl⟩ | rfl)
    · by_cases heq : file.1 = path
      · exact .inl heq.symm
      · exact .inr ⟨file, List.mem_filter.mpr ⟨hfile, decide_eq_true heq⟩, rfl⟩
    · exact .inl rfl

namespace WithFile

theorem hasFile_path (h : WithFile path disk disk') : disk'.hasFile path = true :=
  (h.hasFile_iff path).mpr (.inr rfl)

/-- Whatever is written to the file, it stays where it is. -/
theorem write (h : WithFile path disk disk') (table : Table) :
    WithFile path disk (disk'.write path table) :=
  ⟨h.current, h.directories, h.sealed, fun place => by
    rw [hasFile_write, h.hasFile_iff, or_assoc, or_self]⟩

theorem takesFiles_eq (h : WithFile path disk disk') (place : FilePath) :
    disk'.takesFiles place = disk.takesFiles place := by
  rw [takesFiles, takesFiles, h.current, h.directories]

theorem hasDirectory_eq (h : WithFile path disk disk') (place : FilePath) :
    disk'.hasDirectory place = disk.hasDirectory place := by
  rw [hasDirectory, hasDirectory, h.takesFiles_eq, h.sealed]

theorem start_eq (h : WithFile path disk disk') (text : List UInt8) :
    disk'.start text = disk.start text := by
  rw [start, start, h.current]

end WithFile

/-! ## Where paths lead -/

/-- If every step that can be taken in one way can be taken in another, so can all steps. -/
theorem foldlM_of_some {α β : Type} {f g : β → α → Option β}
    (h : ∀ b a b', f b a = some b' → g b a = some b') {steps : List α} {start last : β}
    (hlast : steps.foldlM f start = some last) : steps.foldlM g start = some last := by
  induction steps generalizing start with
  | nil => exact hlast
  | cons step steps ih =>
      rw [List.foldlM_cons] at hlast ⊢
      obtain ⟨next, hnext, hrest⟩ := Option.bind_eq_some_iff.mp hlast
      exact Option.bind_eq_some_iff.mpr ⟨next, h _ _ _ hnext, ih hrest⟩

/-- A name that stays or goes up is followed from everywhere. -/
theorem follow?_of_light {name : List UInt8} (h : name ∈ [[], Text.bytes "."] ∨
    name = Text.bytes "..") (disk disk' : Disk) (place : FilePath) :
    disk.follow? place name = disk'.follow? place name := by
  unfold follow?
  by_cases hstay : name ∈ [[], Text.bytes "."]
  · rw [if_pos hstay, if_pos hstay]
  · have hup := h.resolve_left hstay
    rw [if_neg hstay, if_neg hstay, if_pos hup, if_pos hup]

/-- A name that goes down is not followed from a file, and leads to a longer path. -/
theorem follow?_of_down {place next : FilePath} {name : List UInt8}
    (hstay : name ∉ [[], Text.bytes "."]) (hup : name ≠ Text.bytes "..")
    (h : disk.follow? place name = some next) :
    disk.hasFile place = false ∧ next = place ++ [name] := by
  rw [follow?, if_neg hstay, if_neg hup] at h
  simp only at h
  split at h
  · cases h
  · rename_i hfollowed
    rw [Bool.or_eq_true, Bool.or_eq_true, not_or, not_or] at hfollowed
    exact ⟨Bool.eq_false_of_not_eq_true hfollowed.1.2, (Option.some.inj h).symm⟩

namespace WithFile

/-- Away from the file, names are followed as before. -/
theorem follow?_eq (h : WithFile path disk disk') {place : FilePath}
    (hplace : disk.hasFile path = true ∨ place ≠ path) (name : List UInt8) :
    disk'.follow? place name = disk.follow? place name := by
  have hfile : disk'.hasFile place = disk.hasFile place := by
    rw [Bool.eq_iff_iff, h.hasFile_iff]
    refine or_iff_left_of_imp fun heq => ?_
    rw [heq]
    exact hplace.resolve_right fun hne => hne heq
  rw [follow?, follow?, hfile, h.hasDirectory_eq]

/-- A name that is followed with the file was followed without it. -/
theorem follow?_of_some (h : WithFile path disk disk') {place next : FilePath} {name : List UInt8}
    (hnext : disk'.follow? place name = some next) : disk.follow? place name = some next := by
  by_cases hplace : place = path
  · by_cases hlight : name ∈ [[], Text.bytes "."] ∨ name = Text.bytes ".."
    · rw [← hnext]
      exact follow?_of_light hlight disk disk' place
    · obtain ⟨hstay, hup⟩ := not_or.mp hlight
      have hfile := (follow?_of_down hstay hup hnext).1
      rw [hplace, h.hasFile_path] at hfile
      cases hfile
  · rw [← h.follow?_eq (.inr hplace), hnext]

/-- A path leads nowhere else than before. -/
theorem find?_of_some (h : WithFile path disk disk') {text : List UInt8} {place : FilePath}
    (hplace : disk'.find? text = some place) : disk.find? text = some place := by
  rw [find?, h.start_eq] at hplace
  exact foldlM_of_some (fun _ _ _ => h.follow?_of_some) hplace

/-- A path without two dots only goes on from where it is. -/
theorem isPrefix_of_names {names : List (List UInt8)} {start place : FilePath}
    (hdots : Text.bytes ".." ∉ names) (hplace : names.foldlM disk.follow? start = some place) :
    start <+: place := by
  induction names generalizing start with
  | nil => exact Option.some.inj hplace ▸ List.prefix_refl _
  | cons name names ih =>
      rw [List.foldlM_cons] at hplace
      obtain ⟨next, hnext, hrest⟩ := Option.bind_eq_some_iff.mp hplace
      have hgo := ih (fun h => hdots (List.mem_cons_of_mem _ h)) hrest
      by_cases hstay : name ∈ [[], Text.bytes "."]
      · rw [follow?, if_pos hstay] at hnext
        exact Option.some.inj hnext ▸ hgo
      · have hup : name ≠ Text.bytes ".." := fun h => hdots (h ▸ List.mem_cons_self)
        rw [(follow?_of_down hstay hup hnext).2] at hgo
        exact (List.prefix_append _ _).trans hgo

/-- Names that lead to the file do so again, if there was a file or none of them goes up. -/
theorem follow_again (h : WithFile path disk disk') {names : List (List UInt8)} {start : FilePath}
    (hlasting : disk.hasFile path = true ∨ Text.bytes ".." ∉ names)
    (hplace : names.foldlM disk.follow? start = some path) :
    names.foldlM disk'.follow? start = some path := by
  induction names generalizing start with
  | nil => exact hplace
  | cons name names ih =>
      rw [List.foldlM_cons] at hplace ⊢
      obtain ⟨next, hnext, hrest⟩ := Option.bind_eq_some_iff.mp hplace
      have hrest' := ih (hlasting.imp_right fun hdots h => hdots (List.mem_cons_of_mem _ h)) hrest
      refine Option.bind_eq_some_iff.mpr ⟨next, ?_, hrest'⟩
      by_cases haway : disk.hasFile path = true ∨ start ≠ path
      · rw [h.follow?_eq haway, hnext]
      · obtain ⟨hfile, hstart⟩ := not_or.mp haway
        have hdots := hlasting.resolve_left hfile
        -- From the file itself every name that goes down would lead past it.
        by_cases hlight : name ∈ [[], Text.bytes "."] ∨ name = Text.bytes ".."
        · rw [follow?_of_light hlight disk' disk, hnext]
        · obtain ⟨hstay, hup⟩ := not_or.mp hlight
          have hpast := isPrefix_of_names (fun h => hdots (List.mem_cons_of_mem _ h)) hrest
          rw [(follow?_of_down hstay hup hnext).2, not_not.mp hstart] at hpast
          have hlength := hpast.length_le
          rw [List.length_append, List.length_singleton] at hlength
          omega

/-- A path without two dots leads to the file as it did when there was none. -/
theorem find?_again (h : WithFile path disk disk') {text : List UInt8}
    (hlasting : disk.hasFile path = true ∨ Text.bytes ".." ∉ Text.pieces '/' text)
    (hplace : disk.find? text = some path) : disk'.find? text = some path := by
  rw [find?, h.start_eq]
  exact h.follow_again hlasting hplace

/-- A step to something that was there can still be taken. -/
theorem walk?_of_some (h : WithFile path disk disk') {place next : FilePath} {name : List UInt8}
    (hnext : disk.walk? place name = some next) : disk'.walk? place name = some next := by
  have hthere (place : FilePath) (hfound : (disk.hasDirectory place || disk.hasFile place) = true) :
      (disk'.hasDirectory place || disk'.hasFile place) = true := by
    rw [Bool.or_eq_true] at hfound ⊢
    rw [h.hasDirectory_eq, h.hasFile_iff]
    exact hfound.imp_right .inl
  unfold walk? at hnext ⊢
  rw [h.hasDirectory_eq]
  split
  · rwa [if_pos ‹_›] at hnext
  rw [if_neg ‹_›] at hnext
  split
  · rwa [if_pos ‹_›] at hnext
  rw [if_neg ‹_›] at hnext
  split
  · rwa [if_pos ‹_›] at hnext
  rw [if_neg ‹_›] at hnext
  simp only at hnext ⊢
  split at hnext
  · rw [if_pos (hthere _ ‹_›), hnext]
  · cases hnext

/-- Whatever was at a path is still there. -/
theorem has_of_has (h : WithFile path disk disk') {text : List UInt8}
    (hhas : disk.has text = true) : disk'.has text = true := by
  rw [has, Bool.and_eq_true] at hhas ⊢
  refine ⟨hhas.1, ?_⟩
  obtain ⟨place, hplace⟩ := Option.isSome_iff_exists.mp hhas.2
  rw [h.start_eq, foldlM_of_some (fun _ _ _ => h.walk?_of_some) hplace]
  rfl

end WithFile

end Disk

/-! ## Where databases are -/

namespace Location

variable {disk disk' : Disk} {path : FilePath} {opening : Opening} {writeAhead : Bool}

/-- What it takes to find the place of a file. -/
theorem place?_eq_some :
    place? disk opening = some path ↔
      disk.find? opening.path = some path ∧ path.length + journalEnding ≤ Disk.pathLimit ∧
        disk.hasDirectory path = false ∧
        (disk.hasFile path = true ∨
          opening.grant.access = .create ∧ disk.takesFiles path.dropLast = true) ∧
        ∀ model ∈ opening.permissionsOf, disk.has model = true := by
  have hmodel : opening.permissionsOf.any (fun model => !disk.has model) = false ↔
      ∀ model ∈ opening.permissionsOf, disk.has model = true := by
    cases opening.permissionsOf <;> simp
  have hroom (place : FilePath) : ¬ (!disk.hasFile place &&
        !(opening.grant.access = .create && disk.takesFiles place.dropLast)) = true ↔
      disk.hasFile place = true ∨
        opening.grant.access = .create ∧ disk.takesFiles place.dropLast = true := by
    cases disk.hasFile place <;> simp
  unfold place?
  rw [← hmodel]
  cases hfind : disk.find? opening.path with
  | none => exact iff_of_false (by rintro ⟨⟩) fun h => by cases h.1
  | some place =>
      have hfail (rest : Unit → Option FilePath) : (failure : Option Unit).bind rest = none := rfl
      simp only [Option.bind_eq_bind, Option.bind_some, Option.some.injEq, hfail,
        Option.ite_none_left_eq_some, Option.pure_def, Nat.not_lt, hroom, Bool.not_eq_true]
      constructor
      · rintro ⟨hlength, hdirectory, hfile, hpermissions, rfl⟩
        exact ⟨rfl, hlength, hdirectory, hfile, hpermissions⟩
      · rintro ⟨rfl, hlength, hdirectory, hfile, hpermissions⟩
        exact ⟨hlength, hdirectory, hfile, hpermissions, rfl⟩

/-- A file that is there has its place if the path still leads to it. -/
theorem place?_again (h : Disk.WithFile path disk disk')
    (hlasting : disk.hasFile path = true ∨ Text.bytes ".." ∉ Text.pieces '/' opening.path)
    (hplace : place? disk opening = some path) : place? disk' opening = some path := by
  obtain ⟨hfind, hlength, hdirectory, -, hpermissions⟩ := place?_eq_some.mp hplace
  refine place?_eq_some.mpr ⟨h.find?_again hlasting hfind, hlength, ?_, .inl h.hasFile_path,
    fun model hmodel => h.has_of_has (hpermissions model hmodel)⟩
  rw [h.hasDirectory_eq, hdirectory]

/-- What is asked for says whether there is to be a file on the disk. -/
theorem find_eq_onDisk (h : find disk writeAhead opening = .ok (.file path)) (disk' : Disk) :
    find disk' writeAhead opening = onDisk disk' writeAhead opening := by
  unfold find at h ⊢
  split
  · rw [if_pos ‹_›, withoutFile] at h
    split at h <;> cases h
  rw [if_neg ‹_›] at h
  split
  · rw [if_pos ‹_›, inMemory] at h
    split at h
    · cases h
    split at h <;> cases h
  · rfl

theorem onDisk_eq_ok {location : Location} (h : onDisk disk writeAhead opening = .ok location) :
    ∃ place, place? disk opening = some place ∧ location = .file place := by
  unfold onDisk at h
  split at h
  · cases h
  · rename_i place hplace
    refine ⟨place, hplace, ?_⟩
    simp only at h
    split at h
    · cases h
    split at h
    · cases h
    split at h
    · cases h
    split at h
    · cases h
    · exact (Except.ok.inj h).symm

/-- Only the place depends on the disk. -/
theorem onDisk_congr (h : place? disk' opening = place? disk opening) :
    onDisk disk' writeAhead opening = onDisk disk writeAhead opening := by
  rw [onDisk, onDisk, h]

end Location

/-! ## Opening again -/

namespace Server

variable {disk disk' : Disk} {settings : Config.Settings} {connection connection' : Connection}
  {path : FilePath}

/-- What it takes that a database is in a file. -/
theorem openDatabase_eq_file (h : openDatabase disk settings = .ok connection)
    (hpath : connection.location = .file path) :
    settings.database.url ≠ DatabaseUrl.memory ∧ settings.database.maxConnections ≠ 0 ∧
      connection = { location := .file path, disk := disk.make path } ∧
      ∃ opening, Opening.ofUrl? settings.database.url = some opening ∧
        Location.find disk settings.database.writeAhead opening = .ok (.file path) := by
  unfold openDatabase at h
  split at h
  · cases h
    cases hpath
  rename_i hurl
  unfold Connection.openDatabase at h
  split at h
  · cases h
  rename_i hconnections
  refine ⟨hurl, hconnections, ?_⟩
  unfold Connection.locate at h
  split at h
  · cases h
  rename_i opening hopening
  cases hfind : Location.find disk settings.database.writeAhead opening with
  | error fault =>
      rw [hfind] at h
      cases h
  | ok location =>
      rw [hfind] at h
      cases Except.ok.inj h
      cases location with
      | memory shared => cases hpath
      | file place =>
          cases hpath
          exact ⟨rfl, opening, hopening, hfind⟩

theorem openDatabase_of_find {opening : Opening} {location : Location}
    (hurl : settings.database.url ≠ DatabaseUrl.memory)
    (hconnections : settings.database.maxConnections ≠ 0)
    (hopening : Opening.ofUrl? settings.database.url = some opening)
    (hfind : Location.find disk settings.database.writeAhead opening = .ok location) :
    openDatabase disk settings = .ok (.atLocation disk location) := by
  rw [openDatabase, if_neg hurl, Connection.openDatabase, if_neg hconnections, Connection.locate,
    hopening]
  simp only [hfind]
  rfl

section Reopening

variable (h : openDatabase disk settings = .ok connection)
  (hpath : connection.location = .file path) (hfile : Disk.WithFile path disk disk')

include h hpath hfile

/-- A database that is opened again is that in the file. -/
theorem reopened_eq (h' : openDatabase disk' settings = .ok connection') :
    connection' = { location := .file path, disk := disk' } := by
  obtain ⟨hurl, hconnections, -, opening, hopening, hfind⟩ := openDatabase_eq_file h hpath
  have honDisk := Location.find_eq_onDisk hfind
  obtain ⟨_, hplace, ⟨⟩⟩ := Location.onDisk_eq_ok ((honDisk disk).symm.trans hfind)
  cases hfind' : Location.find disk' settings.database.writeAhead opening with
  | error fault =>
      rw [openDatabase, if_neg hurl, Connection.openDatabase, if_neg hconnections,
        Connection.locate, hopening] at h'
      simp only [hfind'] at h'
      cases h'
  | ok location =>
      rw [openDatabase_of_find hurl hconnections hopening hfind'] at h'
      obtain ⟨place, hplace', rfl⟩ := Location.onDisk_eq_ok ((honDisk disk').symm.trans hfind')
      have hsame := hfile.find?_of_some (Location.place?_eq_some.mp hplace').1
      rw [(Location.place?_eq_some.mp hplace).1] at hsame
      cases hsame
      cases h'
      rw [Connection.atLocation, Disk.make_of_hasFile hfile.hasFile_path]

/-- A database can be opened again if its file was there from the start, or if the path to it does
not go up. -/
theorem openDatabase_again (hlasting : disk.hasFile path = true ∨
      ∀ opening, Opening.ofUrl? settings.database.url = some opening →
        Text.bytes ".." ∉ Text.pieces '/' opening.path) :
    openDatabase disk' settings = .ok { location := .file path, disk := disk' } := by
  obtain ⟨hurl, hconnections, -, opening, hopening, hfind⟩ := openDatabase_eq_file h hpath
  have honDisk := Location.find_eq_onDisk hfind
  obtain ⟨_, hplace, ⟨⟩⟩ := Location.onDisk_eq_ok ((honDisk disk).symm.trans hfind)
  have hagain : Location.place? disk' opening = some path :=
    Location.place?_again hfile (hlasting.imp_right fun hdots => hdots opening hopening) hplace
  have hfind' : Location.find disk' settings.database.writeAhead opening = .ok (.file path) := by
    rw [honDisk, Location.onDisk_congr (hagain.trans hplace.symm), ← honDisk, hfind]
  rw [openDatabase_of_find hurl hconnections hopening hfind', Connection.atLocation,
    Disk.make_of_hasFile hfile.hasFile_path]

end Reopening

end Server

end ChannelServer
