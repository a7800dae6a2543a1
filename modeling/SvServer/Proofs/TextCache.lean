import Mathlib.Data.List.Induction
import Mathlib.Logic.Basic
import SvServer.TextCache

/-!
# What a cache of texts answers

A read looks at the stamp of a file, reads its text if the cache has none for that stamp, and looks
at the stamp again to keep both. Files may be written and removed between any two of these. As long
as different contents of a file have different stamps, whoever reads a file that stays as it is gets
its text, but for one case: an earlier read found a text, and the file was written before its stamp
was looked at again. Then the cache holds the old text under the stamp of the new one, and gives it
out for as long as the file stays as it is.
-/

namespace SvServer.TextCache

/-- A call on a cache. The three disks of a read are what the look at the stamp, the reading and the
second look at the stamp find. -/
inductive Call where
  | read (path : Path) (first reading second : Disk)
  | forget (path : Path)
  | clear

/-- The cache after a call. -/
def perform (cache : TextCache) : Call → TextCache
  | .read path first reading second => (cache.readAcross path first reading second).1
  | .forget path => cache.forget path
  | .clear => cache.clear

/-- The cache after calls, one after the other. -/
def afterCalls (cache : TextCache) (calls : List Call) : TextCache := calls.foldl perform cache

/-- What a call looks at. -/
def Call.looks : Call → List (Disk × Path)
  | read path first reading second => [(first, path), (reading, path), (second, path)]
  | forget _ => []
  | clear => []

/-- Different contents that a file is found with have different stamps. -/
def TellsApart (looks : List (Disk × Path)) (path : Path) : Prop :=
  ∀ look ∈ looks, ∀ look' ∈ looks, (look.2 == path) = true → (look'.2 == path) = true →
    ∀ file ∈ look.1.file? look.2, ∀ file' ∈ look'.1.file? look'.2,
      file.modified = file'.modified ∧ file.size = file'.size → file.text = file'.text

instance (looks : List (Disk × Path)) (path : Path) : Decidable (TellsApart looks path) :=
  inferInstanceAs (Decidable (∀ look ∈ looks, _))

/-! ## Where entries come from -/

/-- The call read the text of an entry and then found its stamp, on the last disk of the call. -/
def Call.Yields (call : Call) (entry : CachedText) (second : Disk) : Prop :=
  ∃ first reading, call = .read entry.path first reading second ∧
    reading.text? entry.path = some entry.text ∧ anyStamp? second entry.path = some entry.stamp

/-- The call read the text of an entry, and the file had another one when the call came to look at
its stamp. -/
def Call.Tears (call : Call) (entry : CachedText) : Prop :=
  ∃ second, call.Yields entry second ∧ second.text? entry.path ≠ some entry.text

theorem mem_of_find? {cache : TextCache} {path : Path} {entry : CachedText}
    (found : cache.find? path = some entry) :
    entry ∈ cache.entries ∧ (entry.path == path) = true := by
  rw [find?] at found
  exact ⟨List.mem_of_find?_eq_some found, by simpa using List.find?_some found⟩

theorem mem_of_mem_without {cache : TextCache} {path : Path} {entry : CachedText}
    (kept : entry ∈ cache.without path) : entry ∈ cache.entries :=
  (List.mem_filter.1 kept).1

/-- Looking an entry up only moves it. -/
theorem mem_entries_fresh? {cache : TextCache} {path : Path} {current : FileStamp}
    {entry : CachedText} (held : entry ∈ (cache.fresh? path current).1.entries) :
    entry ∈ cache.entries := by
  rw [fresh?] at held
  split at held
  · exact held
  · rename_i found there
    rcases List.mem_cons.1 held with rfl | held
    · exact (mem_of_find? there).1
    · exact mem_of_mem_without held

theorem mem_entries_insert {cache : TextCache} {path : Path} {stamp : FileStamp} {text : String}
    {entry : CachedText} (held : entry ∈ (cache.insert path stamp text).entries) :
    entry = ⟨path, stamp, text⟩ ∨ entry ∈ cache.entries := by
  rcases List.mem_cons.1 held with same | held
  · exact .inl same
  · exact .inr (mem_of_mem_without (List.mem_of_mem_take held))

/-- **What a call leaves in the cache** was there before, or the call read it. -/
theorem mem_entries_perform {cache : TextCache} {call : Call} {entry : CachedText}
    (held : entry ∈ (cache.perform call).entries) :
    entry ∈ cache.entries ∨ ∃ second, call.Yields entry second := by
  cases call with
  | forget path => exact .inl (mem_of_mem_without held)
  | clear => exact absurd held List.not_mem_nil
  | read path first reading second =>
      rw [perform, readAcross] at held
      split at held
      · exact .inl held
      · rename_i current looked
        have moved : ∀ used : TextCache, (cache.fresh? path current).1 = used →
            entry ∈ used.entries → entry ∈ cache.entries := by
          rintro _ rfl
          exact mem_entries_fresh?
        split at held
        · rename_i used text fresh
          exact .inl (moved used (congrArg Prod.fst fresh) held)
        · rename_i used stale
          have back := moved used (congrArg Prod.fst stale)
          split at held
          · exact .inl (back held)
          · rename_i text read
            split at held
            · exact .inl (back held)
            · rename_i stamp stamped
              rcases mem_entries_insert held with rfl | held
              · exact .inr ⟨second, first, reading, rfl, read, stamped⟩
              · exact .inl (back held)

/-- **All that a cache holds, some call read.** -/
theorem exists_yields_of_mem {capacity : Nat} {calls : List Call} {entry : CachedText}
    (held : entry ∈ ((ofCapacity capacity).afterCalls calls).entries) :
    ∃ call ∈ calls, ∃ second, call.Yields entry second := by
  induction calls using List.reverseRecOn with
  | nil => exact absurd held List.not_mem_nil
  | append_singleton before last ih =>
      rw [afterCalls, List.foldl_append] at held
      rcases mem_entries_perform held with old | new
      · obtain ⟨call, listed, yields⟩ := ih old
        exact ⟨call, List.mem_append_left _ listed, yields⟩
      · exact ⟨last, List.mem_append_right _ List.mem_cons_self, new⟩

/-! ## What one read answers -/

theorem anyStamp?_of_file? {disk : Disk} {path : Path} {file : FileContents}
    (leads : disk.file? path = some file) :
    anyStamp? disk path = some ⟨file.modified, file.size⟩ := by
  rw [Disk.file?] at leads
  rw [anyStamp?]
  split at leads
  · rename_i contents entry
    rw [entry, Option.some.inj leads]
  · cases leads

/-- A file is as fresh in the cache as the entry that the cache has of it. -/
theorem snd_fresh? (cache : TextCache) (path : Path) (current : FileStamp) :
    (cache.fresh? path current).2 =
      ((cache.find? path).filter fun entry => entry.stamp = current).map CachedText.text := by
  rw [fresh?]
  split
  · rename_i missing
    rw [missing]
    rfl
  · rename_i entry found
    rw [found, Option.filter_some]
    by_cases same : entry.stamp = current
    · simp [same]
    · simp [same]

/-- A read answers with what the cache has for the stamp, and else with what it reads, provided that
the file is still there afterwards. -/
theorem snd_readAcross {cache : TextCache} {path : Path} {first : Disk} {current : FileStamp}
    (looked : fileStamp? first path = some current) (reading second : Disk) :
    (cache.readAcross path first reading second).2 = (cache.fresh? path current).2.or
      ((reading.text? path).filter fun _ => (anyStamp? second path).isSome) := by
  rw [readAcross, looked]
  dsimp only
  rcases cache.fresh? path current with ⟨used, _ | text⟩
  · cases reading.text? path with
    | none => rfl
    | some text => cases anyStamp? second path <;> rfl
  · rfl

/-! ## Reads of a file that stays as it is -/

/-- While a read runs, the file that the path leads to stays as it is. -/
structure Quiet (path : Path) (first reading second : Disk) : Prop where
  reading : reading.file? path = first.file? path
  second : second.file? path = first.file? path

/-- The cache holds a text under the stamp that the file has now, but the file has another one. -/
def Misleads (cache : TextCache) (entry : CachedText) (path : Path) (disk : Disk) : Prop :=
  cache.find? path = some entry ∧ fileStamp? disk path = some entry.stamp ∧
    disk.text? path ≠ some entry.text

/-- **What a quiet read answers**: the text of the file, unless the cache misleads. -/
theorem readAcross_eq_iff (cache : TextCache) {path : Path} {first reading second : Disk}
    (quiet : Quiet path first reading second) :
    (cache.readAcross path first reading second).2 = first.text? path ↔
      ¬∃ entry, cache.Misleads entry path first := by
  cases leads : first.file? path with
  | none =>
      have stamp : fileStamp? first path = none := by rw [fileStamp?, leads]; rfl
      have text : first.text? path = none := by rw [Disk.text?, leads]; rfl
      rw [readAcross, stamp, text]
      refine iff_of_true rfl ?_
      rintro ⟨entry, -, stamped, -⟩
      rw [stamp] at stamped
      cases stamped
  | some file =>
      have stamp : fileStamp? first path = some ⟨file.modified, file.size⟩ := by
        rw [fileStamp?, leads]
        rfl
      have text : first.text? path = file.text := by rw [Disk.text?, leads]; rfl
      have read : reading.text? path = file.text := by rw [Disk.text?, quiet.reading, leads]; rfl
      have again := anyStamp?_of_file? (quiet.second.trans leads)
      have disk : (file.text.filter fun _ => true) = file.text := by cases file.text <;> rfl
      rw [snd_readAcross stamp, read, again, text, Option.isSome_some, disk, snd_fresh?]
      constructor
      · rintro right ⟨entry, found, stamped, wrong⟩
        rw [stamp, Option.some.injEq] at stamped
        rw [found, Option.filter_some, stamped, decide_eq_true rfl, if_pos rfl] at right
        exact wrong (text.trans right.symm)
      · intro right
        cases kept : (cache.find? path).filter fun entry =>
            entry.stamp = ⟨file.modified, file.size⟩ with
        | none => rfl
        | some entry =>
            obtain ⟨found, same⟩ := Option.filter_eq_some_iff.1 kept
            rw [decide_eq_true_eq] at same
            by_cases equal : file.text = some entry.text
            · exact equal.symm
            · exact absurd ⟨entry, found, by rw [stamp, same], by rwa [text]⟩ right

/-- **The cache does not show**, whatever its capacity, the calls before and the changes of the disk
between any two looks at it: a read of a file that stays as it is gives the text that the file has,
and nothing where there is no text. The only exception is a text that an earlier read found just
before the file was written, and kept under the stamp that it found just afterwards, if that is the
stamp that the file has now. -/
theorem quiet_read_eq_iff {capacity : Nat} {calls : List Call} {path : Path}
    {first reading second : Disk} (quiet : Quiet path first reading second)
    (apart : TellsApart ((first, path) :: calls.flatMap Call.looks) path) :
    (((ofCapacity capacity).afterCalls calls).readAcross path first reading second).2 =
        first.text? path ↔
      ¬∃ call ∈ calls, ∃ entry, call.Tears entry ∧
        ((ofCapacity capacity).afterCalls calls).Misleads entry path first := by
  rw [readAcross_eq_iff _ quiet, not_iff_not]
  constructor
  · rintro ⟨entry, found, stamped, wrong⟩
    obtain ⟨held, same⟩ := mem_of_find? found
    obtain ⟨call, listed, after, yields⟩ := exists_yields_of_mem held
    refine ⟨call, listed, entry, ⟨after, yields, ?_⟩, found, stamped, wrong⟩
    -- A file of that text and stamp would be the one that is there now.
    intro still
    obtain ⟨before, middle, rfl, -, stamp⟩ := yields
    obtain ⟨file, leads, text⟩ := Option.bind_eq_some_iff.1 still
    obtain ⟨now, leads', stamp'⟩ := Option.map_eq_some_iff.1 stamped
    rw [anyStamp?_of_file? leads, ← stamp', Option.some.injEq, FileStamp.mk.injEq] at stamp
    have seen : (after, entry.path) ∈ (first, path) :: calls.flatMap Call.looks :=
      List.mem_cons_of_mem _ (List.mem_flatMap.2 ⟨_, listed, by simp [Call.looks]⟩)
    have equal := apart _ seen _ List.mem_cons_self same BEq.rfl file leads now leads' stamp
    rw [Disk.text?, leads', Option.bind_some, ← equal, text] at wrong
    exact wrong rfl
  · rintro ⟨-, -, entry, -, misleads⟩
    exact ⟨entry, misleads⟩

/-- A disk with two files, of which the first has the given text and time. -/
def sampleDisk (text : String) (time : Nat) : Disk :=
  ⟨.folder "p" true
      (.file "a.sv" ⟨some text, text.utf8ByteSize, time⟩ (.file "b.sv" ⟨some "", 0, 0⟩ .empty))
      .empty,
    .ofString "/", time + 1⟩

/-- The first file is written between the first look at its stamp and the reading, then drops out of
a small cache, and is read once more. -/
theorem quiet_read_of_written :
    let path := Path.ofString "/p/a.sv"
    let disk := sampleDisk "newer" 2
    let calls : List Call := [.read path (sampleDisk "old" 1) disk disk,
      .read (.ofString "/p/b.sv") disk disk disk, .forget (.ofString "/p/b.sv")]
    Quiet path disk disk disk ∧
      TellsApart ((disk, path) :: calls.flatMap Call.looks) path ∧
      ((((ofCapacity 1).afterCalls calls).readAcross path disk disk disk).2 = disk.text? path ↔
        ¬∃ call ∈ calls, ∃ entry, call.Tears entry ∧
          ((ofCapacity 1).afterCalls calls).Misleads entry path disk) :=
  ⟨⟨rfl, rfl⟩, by decide +kernel, quiet_read_eq_iff ⟨rfl, rfl⟩ (by decide +kernel)⟩

/-- **An old text stays.** The file is written between the reading and the second look at its stamp,
and from then on a read of the file, which stays as it is, gives the text that it had before. -/
theorem old_text_after_write :
    let path := Path.ofString "/p/a.sv"
    let written := sampleDisk "newer" 2
    let calls : List Call := [.read path (sampleDisk "old" 1) (sampleDisk "old" 1) written]
    TellsApart ((written, path) :: calls.flatMap Call.looks) path ∧
      written.text? path = some "newer" ∧
      (((ofCapacity defaultCapacity).afterCalls calls).read path written).2 = some "old" := by
  decide +kernel

end SvServer.TextCache
