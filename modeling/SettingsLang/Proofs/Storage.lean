import Mathlib.Data.String.Basic
import SettingsLang.Files.Disk
import SettingsLang.Files.Memory
import SettingsLang.Proofs.Outcome

/-!
Stores that are values. Looking at a store leaves it as it is, and a text that has been put into a
file is there afterwards. Files in memory are such a store, and so is a disk: a path that a file
could be written under leads to that file, since only directories lie on the way.
-/

namespace SettingsLang

namespace Path

open String

/-- What is still to be cut at slashes, behind what has been cut off and the part at hand. -/
theorem splitOnAux_slash (front part rest : List Char) (done : List String) :
    splitOnAux (ofList (front ++ part ++ rest)) "/" ⟨utf8Len front⟩ ⟨utf8Len (front ++ part)⟩ 0
        done =
      done.reverse ++ (List.splitOnPPrepend (· == '/') rest part.reverse).map ofList := by
  induction rest generalizing front part done with
  | nil =>
      have hend := (atEnd_of_valid (front ++ part) []).mpr rfl
      rw [splitOnAux.eq_def, if_pos hend, utf8Len_append, extract_of_valid]
      simp
  | cons char rest ih =>
      have hmore : ¬ Pos.Raw.atEnd (ofList (front ++ part ++ char :: rest))
          ⟨utf8Len (front ++ part)⟩ = true := by
        rw [atEnd_of_valid]
        exact List.cons_ne_nil char rest
      have hget : Pos.Raw.get (ofList (front ++ part ++ char :: rest))
          ⟨utf8Len (front ++ part)⟩ = char := get_of_valid (front ++ part) (char :: rest)
      have hslash : Pos.Raw.get "/" 0 = '/' := by decide
      have hafter : Pos.Raw.atEnd "/" (Pos.Raw.next "/" 0) = true := by decide
      rw [splitOnAux.eq_def, if_neg hmore, hget, hslash, next_of_valid, if_pos hafter]
      by_cases h : char = '/'
      · subst h
        have hih := ih (front ++ part ++ ['/']) [] (ofList part :: done)
        have hback : Pos.Raw.unoffsetBy ⟨utf8Len (front ++ part) + '/'.utf8Size⟩
            (Pos.Raw.next "/" 0) = ⟨utf8Len front + utf8Len part⟩ := by
          rw [utf8Len_append]
          rfl
        rw [if_pos (beq_self_eq_true '/'), hback, extract_of_valid]
        simpa [-ofList_append, List.splitOnPPrepend_cons_eq_if, Nat.add_assoc] using hih
      · have hih := ih front (part ++ [char]) done
        have hstay : Pos.Raw.unoffsetBy ⟨utf8Len (front ++ part)⟩ 0 =
            ⟨utf8Len (front ++ part)⟩ := rfl
        rw [if_neg (by simpa using h), hstay, next_of_valid]
        simpa [-ofList_append, List.splitOnPPrepend_cons_eq_if, h, Nat.add_assoc] using hih

/-- The parts of a path are its texts between slashes. -/
theorem parts_eq_splitOn (path : String) : parts path = (path.toList.splitOn '/').map ofList := by
  have h := splitOnAux_slash [] [] path.toList []
  simpa [parts, splitOn, List.splitOn_eq_splitOnP] using h

end Path

/-- What the actions on files do to a store that is a value. -/
class Store (S : Type) [FileAccess (StateM S)] where
  present : S → String → Bool
  read : S → String → Except String String
  write : S → (path text : String) → Except String S
  /-- The text of the file that a path leads to, whether it may be read or not. -/
  held? : S → String → Option String
  present_run (path : String) (store : S) :
    (FileAccess.present path : StateM S Bool).run store = (present store path, store)
  readText_run (path : String) (store : S) :
    (FileAccess.readText path : StateM S (Except String String)).run store =
      (read store path, store)
  writeText_run (path text : String) (store : S) :
    (FileAccess.writeText path text : StateM S (Except String Unit)).run store =
      match write store path text with
      | .ok after => (.ok (), after)
      | .error cause => (.error cause, store)
  held_write {store after : S} {path text : String} (h : write store path text = .ok after) :
    held? after path = some text

namespace MemoryFiles

theorem text?_eq (files : MemoryFiles) (path : String) :
    files.text? path = (files.texts.find? (Path.same path ·.1)).map (·.2) := rfl

theorem same_congr {path other : String} (h : Path.same path other = true) (third : String) :
    Path.same third path = Path.same third other := by
  rw [Path.same, beq_iff_eq.mp h, Path.same]

theorem same_comm (path other : String) : Path.same path other = Path.same other path :=
  BEq.comm

theorem text?_congr (files : MemoryFiles) {path other : String}
    (h : Path.same path other = true) : files.text? path = files.text? other := by
  have hthird (third : String) : Path.same path third = Path.same other third := by
    rw [same_comm path, same_congr h, same_comm]
  rw [text?_eq, text?_eq, funext fun entry : String × String => hthird entry.1]

/-- Under a path there is the text that was put there, however the path is written; the others are
as they were. -/
theorem text?_put (files : MemoryFiles) (path text other : String) :
    (files.put path text).text? other =
      if Path.same path other then some text else files.text? other := by
  cases hheld : (files.text? path).isSome with
  | true =>
      have hput : (files.put path text).text? other =
          (files.texts.find? (Path.same other ·.1)).map fun entry =>
            if Path.same path entry.1 then text else entry.2 := by
        rw [text?_eq, put, if_pos hheld, List.find?_map, Option.map_map]
        rfl
      rw [hput, text?_eq]
      cases hfound : files.texts.find? (Path.same other ·.1) with
      | none =>
          split
          · next hsame =>
              rw [text?_congr files hsame, text?_eq, hfound] at hheld
              cases hheld
          · rfl
      | some entry =>
          have hentry : Path.same other entry.1 = true := by simpa using List.find?_some hfound
          simp only [Option.map_some, ← same_congr hentry path]
          split <;> rfl
  | false =>
      have hput : (files.put path text).text? other =
          ((files.texts.find? (Path.same other ·.1)).or
            ([(path, text)].find? (Path.same other ·.1))).map (·.2) := by
        rw [text?_eq, put, hheld, if_neg (by decide), List.find?_append]
      rw [hput, text?_eq]
      split
      · next hsame =>
          rw [text?_congr files hsame, text?_eq, Option.isSome_map,
            Option.isSome_eq_false_iff, Option.isNone_iff_eq_none] at hheld
          rw [hheld, Option.none_or, List.find?_cons_of_pos (by rwa [same_comm])]
          rfl
      · next hother =>
          rw [List.find?_cons_of_neg (by rwa [same_comm]), List.find?_nil, Option.or_none]

end MemoryFiles

instance : Store MemoryFiles where
  present := MemoryFiles.present
  read := MemoryFiles.read
  write := MemoryFiles.write
  held? := MemoryFiles.text?
  present_run _ _ := rfl
  readText_run _ _ := rfl
  writeText_run path text files := by
    change StateT.run (_ >>= _) _ = _
    simp only [StateT.run_bind, StateT.run_get, pure_bind]
    cases files.write path text <;> rfl
  held_write {files after path text} h := by
    unfold MemoryFiles.write at h
    split at h
    · cases h
    · cases h
      rw [MemoryFiles.text?_put, if_pos (by simp [Path.same])]

namespace MemoryFiles

theorem present_of_text? {files : MemoryFiles} {path text : String}
    (h : files.text? path = some text) : Store.present files path = true := by
  simp [Store.present, present, h]

theorem read_of_text? {files : MemoryFiles} {path text : String}
    (h : files.text? path = some text) (hopen : files.unreadable.any (Path.same path) = false) :
    Store.read files path = .ok text := by
  simp [Store.read, read, h, hopen]

end MemoryFiles

section Single

variable (path document : String)

theorem MemoryFiles.text?_single :
    MemoryFiles.text? ⟨[(path, document)], [], []⟩ path = some document := by
  simp [MemoryFiles.text?_eq, Path.same]

theorem Store.present_single :
    Store.present (⟨[(path, document)], [], []⟩ : MemoryFiles) path = true :=
  MemoryFiles.present_of_text? (MemoryFiles.text?_single path document)

theorem Store.read_single :
    Store.read (⟨[(path, document)], [], []⟩ : MemoryFiles) path = .ok document :=
  MemoryFiles.read_of_text? (MemoryFiles.text?_single path document) rfl

end Single

namespace Disk

variable {disk : Disk} {place other : Place}

theorem held_put_self (hplace : place ≠ []) (entry : DiskEntry) :
    Disk.entry? (disk.put place entry) place = some entry := by
  have hempty : place.isEmpty = false := by simpa using hplace
  rw [Disk.entry?, hempty]
  simp [put]

theorem held_put_of_ne (h : other ≠ place) (entry : DiskEntry) :
    Disk.entry? (disk.put place entry) other = disk.entry? other := by
  have hskip (entries : List (Place × DiskEntry)) :
      (entries.filter (·.1 != place)).lookup other = entries.lookup other := by
    induction entries with
    | nil => rfl
    | cons held rest ih =>
        rw [List.filter_cons]
        split
        · rw [List.lookup_cons, List.lookup_cons, ih]
        · next hheld =>
            obtain rfl : held.1 = place := by simpa using hheld
            rw [ih, List.lookup_cons, beq_eq_false_iff_ne.mpr h]
  rw [Disk.entry?, Disk.entry?, put, List.lookup_cons, beq_eq_false_iff_ne.mpr h]
  simp only [hskip]

/-- Where a file may be put, it takes no directory away and adds none. -/
theorem isDirectory_put (hplace : place ≠ []) (hfile : disk.isDirectory place = false)
    (bytes : ByteArray) (other : Place) :
    (disk.put place (.file bytes)).isDirectory other = disk.isDirectory other := by
  by_cases h : other = place
  · subst h
    rw [hfile, isDirectory, held_put_self hplace]
  · rw [isDirectory, held_put_of_ne h, isDirectory]

theorem next_congr {after : Disk} (h : after.isDirectory place = disk.isDirectory place)
    (part : String) : after.next place part = disk.next place part := by
  rw [next, next, h]

theorem step_eq_ok_iff {part : String} {found : Place} :
    disk.step place part = .ok found ↔
      disk.next place part = .ok found ∧ (disk.entry? found).isSome = true := by
  unfold step
  cases disk.next place part with
  | error fault => simp [bind, Except.bind]
  | ok reached =>
      simp only [bind, Except.bind, Except.ok.injEq]
      constructor
      · intro h
        split at h
        · next hthere =>
            cases h
            exact ⟨rfl, hthere⟩
        · cases h
      · rintro ⟨rfl, hthere⟩
        rw [if_pos hthere]

theorem step_put (hplace : place ≠ []) (hfile : disk.isDirectory place = false)
    (bytes : ByteArray) {part : String} {start found : Place}
    (h : disk.step start part = .ok found) :
    (disk.put place (.file bytes)).step start part = .ok found := by
  rw [step_eq_ok_iff] at h ⊢
  rw [next_congr (isDirectory_put hplace hfile bytes start)]
  refine ⟨h.1, ?_⟩
  by_cases hsame : found = place
  · rw [hsame, held_put_self hplace]
    rfl
  · rw [held_put_of_ne hsame]
    exact h.2

theorem foldlM_step_put (hplace : place ≠ []) (hfile : disk.isDirectory place = false)
    (bytes : ByteArray) {parts : List String} {start found : Place}
    (h : parts.foldlM disk.step start = .ok found) :
    parts.foldlM (disk.put place (.file bytes)).step start = .ok found := by
  induction parts generalizing start with
  | nil => exact h
  | cons part rest ih =>
      rw [List.foldlM_cons, bind_eq_ok_iff] at h ⊢
      obtain ⟨reached, hstep, hrest⟩ := h
      exact ⟨reached, step_put hplace hfile bytes hstep, ih hrest⟩

theorem next_eq_name {part : String} (hpart : part ≠ "") (hcurrent : part ≠ ".")
    (hparent : part ≠ "..") {found : Place} (h : disk.next place part = .ok found) :
    found = place ++ [part] := by
  unfold next at h
  rw [if_neg (show ¬ (part = "" ∨ part = ".") from fun hor => hor.elim hpart hcurrent),
    if_neg hparent] at h
  split at h
  · cases h
  · split at h <;> cases h
    rfl

/-- A file is put where the path without its last part leads to a directory and the last part is a
name in it. -/
theorem writeFile_eq_ok {path : String} {bytes : ByteArray} {after : Disk}
    (h : disk.writeFile path bytes = .ok after) :
    checkPath path = .ok () ∧ ∃ before last around,
      Path.parts path = before ++ [last] ∧
      before.foldlM disk.step (disk.start path) = .ok around ∧
      disk.next around last = .ok (around ++ [last]) ∧
      disk.isDirectory (around ++ [last]) = false ∧
      after = disk.put (around ++ [last]) (.file bytes) := by
  obtain ⟨⟨⟩, hpath, h⟩ := bind_eq_ok_iff.mp h
  dsimp only at h
  split at h
  · cases h
  next last before hparts =>
    obtain ⟨around, haround, h⟩ := bind_eq_ok_iff.mp h
    split at h
    · cases h
    next hdirectory =>
      split at h
      · cases h
      next hname =>
        obtain ⟨place, hnext, h⟩ := bind_eq_ok_iff.mp h
        split at h
        · cases h
        next hfile =>
          cases h
          obtain ⟨hslash, hcurrent, hparent⟩ :
              (Path.parts path).getLast? ≠ some "" ∧ last ≠ "." ∧ last ≠ ".." := by
            simpa only [not_or] using hname
          have hwhole : (Path.parts path).reverse = last :: before := by
            rw [← List.head?_reverse] at hslash
            cases hrev : (Path.parts path).reverse with
            | nil =>
                rw [hrev] at hparts
                cases hparts
            | cons part rest =>
                rw [hrev] at hparts hslash
                have hpart : part ≠ "" := by simpa using hslash
                rwa [List.dropWhile_cons_of_neg (by simpa using hpart)] at hparts
          have hpart : last ≠ "" := by
            rintro rfl
            rw [← List.head?_reverse, hwhole] at hslash
            exact hslash rfl
          obtain rfl := next_eq_name hpart hcurrent hparent hnext
          refine ⟨hpath, before.reverse, last, around, ?_, haround, hnext, ?_, rfl⟩
          · rw [← List.reverse_reverse (Path.parts path), hwhole, List.reverse_cons]
          · simpa using hfile

/-- The path under which a file was put leads to it. -/
theorem locate_writeFile {path : String} {bytes : ByteArray} {after : Disk}
    (h : disk.writeFile path bytes = .ok after) :
    ∃ place, place ≠ [] ∧ after = disk.put place (.file bytes) ∧ after.locate path = .ok place := by
  obtain ⟨hpath, before, last, around, hparts, haround, hnext, hfile, rfl⟩ := writeFile_eq_ok h
  have hplace : around ++ [last] ≠ [] := by simp
  refine ⟨around ++ [last], hplace, rfl, ?_⟩
  have hreached := foldlM_step_put hplace hfile bytes haround
  have hlast : (disk.put (around ++ [last]) (.file bytes)).step around last =
      .ok (around ++ [last]) := by
    rw [step_eq_ok_iff, next_congr (isDirectory_put hplace hfile _ around), held_put_self hplace]
    exact ⟨hnext, rfl⟩
  have hstart : Disk.start (disk.put (around ++ [last]) (.file bytes)) path =
      disk.start path := rfl
  rw [locate, hpath, hparts, hstart]
  refine bind_eq_ok_iff.mpr ⟨(), rfl, ?_⟩
  rw [List.foldlM_append, bind_eq_ok_iff]
  refine ⟨around, hreached, ?_⟩
  rw [List.foldlM_cons, bind_eq_ok_iff]
  exact ⟨_, hlast, rfl⟩

theorem read_writeFile {path text : String} {after : Disk}
    (h : disk.writeFile path text.toUTF8 = .ok after) : after.read path = .ok text := by
  obtain ⟨place, hplace, rfl, hlocate⟩ := locate_writeFile h
  have htext : String.fromUTF8? text.toUTF8 = some text := dif_pos text.isValidUTF8
  rw [read, hlocate]
  refine bind_eq_ok_iff.mpr ⟨_, rfl, ?_⟩
  rw [held_put_self hplace]
  dsimp only
  rw [htext]

/-- A text that was written is read back, also where directories had to be made. -/
theorem read_write {path text : String} {after : Disk} (h : disk.write path text = .ok after) :
    after.read path = .ok text := by
  obtain ⟨made, -, hwrite⟩ := bind_eq_ok_iff.mp h
  exact read_writeFile hwrite

end Disk

instance : Store Disk where
  present := Disk.present
  read disk path := (disk.read path).mapError DiskFault.message
  write disk path text := (disk.write path text).mapError DiskFault.message
  held? disk path := (disk.read path).toOption
  present_run _ _ := rfl
  readText_run _ _ := rfl
  writeText_run path text disk := by
    change StateT.run (_ >>= _) _ = _
    simp only [StateT.run_bind, StateT.run_get, pure_bind]
    cases disk.write path text <;> rfl
  held_write {disk after path text} h := by
    rw [Disk.read_write (mapError_eq_ok_iff.mp h)]
    rfl

end SettingsLang
