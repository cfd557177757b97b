import AppPilotKit.Adapter.Artifact
import AppPilotKit.Lib.Checks

/-! # What an artifact stream says

Two accepted trees have one stream exactly when they are one tree, in whatever order their names
were read. The records stand in the order of their paths, directories before what is in them,
and can be read back.
-/

namespace AppPilotKit.Adapter.Artifact

open Wire

/-! ## Paths -/

section
variable {name : Name} {names : List Name}

theorem pathOf_singleton : pathOf [name] = name.bytes := by simp [pathOf, List.intercalate]

theorem pathOf_cons (more : names ≠ []) : pathOf (name :: names) = name.bytes ++ slash :: pathOf names := by
  cases names with
  | nil => exact absurd rfl more
  | cons other names => simp [pathOf, List.intercalate]

theorem pathOf_ne_nil (more : names ≠ []) : pathOf names ≠ [] := by
  cases names with
  | nil => exact absurd rfl more
  | cons name names =>
      by_cases last : names = []
      · rw [last, pathOf_singleton]
        exact name.nonempty
      · rw [pathOf_cons last]
        exact List.append_ne_nil_of_left_ne_nil name.nonempty _

theorem pathOf_snoc (names : List Name) (name : Name) :
    pathOf (names ++ [name]) = pathOf names ++ (if pathOf names = [] then [] else [slash]) ++ name.bytes := by
  induction names with
  | nil => simp [pathOf, List.intercalate]
  | cons first names ih =>
      have some : pathOf (first :: names) ≠ [] := pathOf_ne_nil (List.cons_ne_nil _ _)
      rw [if_neg some]
      by_cases last : names = []
      · subst last
        rw [List.singleton_append, pathOf_cons (List.cons_ne_nil _ _), pathOf_singleton, pathOf_singleton]
        simp
      · rw [if_neg (pathOf_ne_nil last)] at ih
        rw [List.cons_append, pathOf_cons (by simp), ih, pathOf_cons last]
        simp

theorem splitOn_pathOf (more : names ≠ []) : (pathOf names).splitOn slash = names.map (·.bytes) := by
  refine List.splitOn_intercalate slash ?_ (by simpa using more)
  intro component member
  obtain ⟨name, -, rfl⟩ := List.mem_map.mp member
  exact name.noSlash

theorem lastSlash_append {parent last : Bytes} (noSlash : slash ∉ last) :
    lastSlash (parent ++ slash :: last) = some parent.length := by
  have found : (last.reverse ++ slash :: parent.reverse).findIdx? (· = slash) = some last.reverse.length := by
    rw [List.findIdx?_append]
    have none : last.reverse.findIdx? (· = slash) = none := by
      rw [List.findIdx?_eq_none_iff]
      intro b member
      exact decide_eq_false fun same => noSlash (same ▸ List.mem_reverse.mp member)
    rw [none, List.findIdx?_cons]
    simp
  unfold lastSlash
  rw [List.reverse_append, List.reverse_cons, List.append_assoc, List.singleton_append, found, Option.map_some,
    List.length_reverse, List.length_append, List.length_cons]
  congr 1
  omega

end

/-! ## What is collected -/

/-- No special file anywhere. -/
def Directory.Regular : Directory → Prop
  | .empty => True
  | .directory _ children others => children.Regular ∧ others.Regular
  | .file _ _ _ others => others.Regular
  | .special _ _ => False

def entryOf (path : Bytes) : Node → Entry
  | .directory => { path, kind := .directory, executable := false, size := 0 }
  | .file executable content => { path, kind := .file, executable, size := content.length }

/-- The sizes that the stream has fields for. -/
def Fits (path : Bytes) (node : Node) : Prop :=
  path.length < 2 ^ 32 ∧ ∀ executable content, node = .file executable content → content.length < 2 ^ 64

theorem validatePath_short {path : Bytes} {u : Unit} (h : validatePath path = .ok u) : path.length < 2 ^ 32 := by
  unfold validatePath at h
  split at h
  · cases h
  · rename_i short
    push Not at short
    have := short.2.1
    unfold maxPathBytes at this
    omega

theorem nextPath_ok {names : List Name} {name : Name} {entries : List Entry} {path : Bytes}
    (h : nextPath (pathOf names) name entries = .ok path) : path = pathOf (names ++ [name]) ∧ path.length < 2 ^ 32 := by
  obtain ⟨joined, valid, room⟩ := Checks.bind_ok.mp h
  obtain ⟨u, checked, rest⟩ := Checks.bind_ok.mp valid
  cases rest
  split at room
  · cases room
  cases room
  exact ⟨(pathOf_snoc names name).symm, validatePath_short checked⟩

theorem requireFileBudget_ok {size total total' : Nat} (h : requireFileBudget size total = .ok total') : size < 2 ^ 64 := by
  unfold requireFileBudget at h
  split at h
  · cases h
  · rename_i small
    unfold maxFileBytes at small
    omega

/-- What is collected are the places of the directory, below the names of the parent. -/
theorem collectDirectory_ok (directory : Directory) :
    ∀ (names : List Name) (entries : List Entry) (total : Nat) (entries' : List Entry) (total' : Nat),
      collectDirectory directory (pathOf names) entries total = .ok (entries', total') →
      directory.Regular ∧
        entries' = entries ++ directory.places.map (fun place => entryOf (pathOf (names ++ place.1)) place.2) ∧
        ∀ place ∈ directory.places, Fits (pathOf (names ++ place.1)) place.2 := by
  induction directory with
  | empty =>
      intro names entries total entries' total' h
      cases h
      exact ⟨trivial, (List.append_nil _).symm, fun place member => absurd member List.not_mem_nil⟩
  | directory name children others below beside =>
      intro names entries total entries' total' h
      obtain ⟨path, next, h⟩ := Checks.bind_ok.mp h
      obtain ⟨rfl, short⟩ := nextPath_ok next
      obtain ⟨⟨entries₁, total₁⟩, inner, h⟩ := Checks.bind_ok.mp h
      obtain ⟨regular, rfl, fits⟩ := below (names ++ [name]) _ _ _ _ inner
      obtain ⟨regular', rfl, fits'⟩ := beside names _ _ _ _ h
      refine ⟨⟨regular, regular'⟩, ?_, ?_⟩
      · simp [Directory.places, entryOf, List.map_map, Function.comp_def]
      · intro place member
        rcases List.mem_cons.mp member with rfl | member
        · exact ⟨short, nofun⟩
        · rcases List.mem_append.mp member with inside | outside
          · obtain ⟨place, there, rfl⟩ := List.mem_map.mp inside
            simpa using fits place there
          · exact fits' place outside
  | file name executable content others beside =>
      intro names entries total entries' total' h
      obtain ⟨path, next, h⟩ := Checks.bind_ok.mp h
      obtain ⟨rfl, short⟩ := nextPath_ok next
      obtain ⟨total₁, budget, h⟩ := Checks.bind_ok.mp h
      obtain ⟨regular, rfl, fits⟩ := beside names _ _ _ _ h
      refine ⟨regular, ?_, ?_⟩
      · simp [Directory.places, entryOf]
      · intro place member
        rcases List.mem_cons.mp member with rfl | member
        · refine ⟨short, fun executable content same => ?_⟩
          cases same
          exact requireFileBudget_ok budget
        · exact fits place member
  | special name others _ =>
      intro names entries total entries' total' h
      obtain ⟨path, next, h⟩ := Checks.bind_ok.mp h
      cases h

/-! ## Files by their path -/

theorem places_head {directory : Directory} {names : List Name} {node : Node} (there : (names, node) ∈ directory.places) :
    ∃ name below node', names = name :: below ∧ ([name], node') ∈ directory.places := by
  induction directory with
  | empty => exact absurd there List.not_mem_nil
  | directory name children others _ beside =>
      rcases List.mem_cons.mp there with same | there
      · cases same
        exact ⟨name, [], .directory, rfl, List.mem_cons_self ..⟩
      · rcases List.mem_append.mp there with inside | outside
        · obtain ⟨place, -, same⟩ := List.mem_map.mp inside
          cases same
          exact ⟨name, place.1, .directory, rfl, List.mem_cons_self ..⟩
        · obtain ⟨first, below, node', split, head⟩ := beside outside
          exact ⟨first, below, node', split, List.mem_cons_of_mem _ (List.mem_append_right _ head)⟩
  | file name executable content others beside =>
      rcases List.mem_cons.mp there with same | there
      · cases same
        exact ⟨name, [], _, rfl, List.mem_cons_self ..⟩
      · obtain ⟨first, below, node', split, head⟩ := beside there
        exact ⟨first, below, node', split, List.mem_cons_of_mem _ head⟩
  | special name others beside => exact beside there

theorem openComponents_congr {directory directory' : Directory} {component : Bytes} (components : List Bytes)
    (same : directory.find component = directory'.find component) :
    openComponents directory (component :: components) = openComponents directory' (component :: components) := by
  cases components with
  | nil => rw [openComponents, openComponents, same]
  | cons next components =>
      rw [openComponents, openComponents, same]
      · exact nofun
      · exact nofun

/-- Opening the path of a file finds the file, when no two places have one path. -/
theorem openComponents_places {directory : Directory} (regular : directory.Regular)
    (distinct : (directory.places.map (·.1)).Nodup) {names : List Name} {executable : Bool} {content : Bytes}
    (there : (names, Node.file executable content) ∈ directory.places) :
    openComponents directory (names.map (·.bytes)) = .ok content := by
  induction directory generalizing names with
  | empty => exact absurd there List.not_mem_nil
  | directory name children others below beside =>
      obtain ⟨fresh, rest⟩ := List.nodup_cons.mp distinct
      rw [List.map_append, List.map_map] at fresh rest
      obtain ⟨inner, outer, -⟩ := List.nodup_append.mp rest
      rcases List.mem_cons.mp there with same | there
      · cases same
      · rcases List.mem_append.mp there with inside | outside
        · obtain ⟨⟨deeper, node⟩, place, same⟩ := List.mem_map.mp inside
          cases same
          obtain ⟨next, others', -, rfl, -⟩ := places_head place
          have inner' : (children.places.map (·.1)).Nodup := by
            refine List.Nodup.of_map (name :: ·) ?_
            rwa [List.map_map]
          have found := below regular.1 inner' place
          rw [List.map_cons, List.map_cons, openComponents, Directory.find, if_pos rfl]
          · exact found
          · exact nofun
        · obtain ⟨first, deeper, node', rfl, head⟩ := places_head outside
          have other : name.bytes ≠ first.bytes := by
            intro same
            refine fresh (List.mem_append_right _ (List.mem_map.mpr ⟨([first], node'), head, ?_⟩))
            obtain ⟨bytes, _, _⟩ := name
            obtain ⟨bytes', _, _⟩ := first
            cases same
            rfl
          rw [List.map_cons, openComponents_congr _ (show (Directory.directory name children others).find first.bytes = _ from
            if_neg other), ← List.map_cons (f := fun name : Name => name.bytes)]
          exact beside regular.2 outer outside
  | file name executable' content' others beside =>
      obtain ⟨fresh, rest⟩ := List.nodup_cons.mp distinct
      rcases List.mem_cons.mp there with same | outside
      · cases same
        rw [List.map_cons, List.map_nil, openComponents, Directory.find, if_pos rfl]
      · obtain ⟨first, deeper, node', rfl, head⟩ := places_head outside
        have other : name.bytes ≠ first.bytes := by
          intro same
          refine fresh (List.mem_map.mpr ⟨([first], node'), head, ?_⟩)
          obtain ⟨bytes, _, _⟩ := name
          obtain ⟨bytes', _, _⟩ := first
          cases same
          rfl
        rw [List.map_cons, openComponents_congr _ (show (Directory.file name executable' content' others).find first.bytes = _ from
          if_neg other), ← List.map_cons (f := fun name : Name => name.bytes)]
        exact beside regular rest outside
  | special name others _ => exact absurd regular id

/-! ## The stream -/

/-- The loop over the buffers emits a file of the collected size as it is. -/
theorem copyFile_whole (n : Nat) : ∀ file : Bytes, file.length = n → copyFile n file = .ok (file, []) := by
  induction n using Nat.strongRecOn with
  | ind n ih =>
      intro file whole
      rw [copyFile]
      by_cases done : n = 0
      · rw [if_pos done, List.length_eq_zero_iff.mp (whole.trans done)]
      · have some : min n copyBufferBytes ≠ 0 := by
          unfold copyBufferBytes
          omega
        have rest := ih (n - min n copyBufferBytes) (by omega) (file.drop (min n copyBufferBytes))
          (by rw [List.length_drop, whole])
        rw [if_neg done, if_neg (by omega), rest]
        exact congrArg (fun emitted => Except.ok (emitted, [])) (List.take_append_drop ..)

/-- A record of the format. -/
def recordOf (record : Bytes × Node) : Bytes :=
  match record.2 with
  | .directory => 1 :: (be 4 record.1.length ++ record.1 ++ [0])
  | .file executable content =>
      2 :: (be 4 record.1.length ++ record.1 ++ [if executable then 1 else 0] ++ be 8 content.length ++ content)

def Directory.records (root : Directory) : List (Bytes × Node) := root.places.map fun place => (pathOf place.1, place.2)

def sortRecords (records : List (Bytes × Node)) : List (Bytes × Node) :=
  records.mergeSort fun left right => decide (¬ right.1 < left.1)

theorem entryOf_path (path : Bytes) (node : Node) : (entryOf path node).path = path := by
  cases node with
  | directory => rfl
  | file executable content => rfl

theorem sortEntries_records (records : List (Bytes × Node)) :
    sortEntries (records.map fun record => entryOf record.1 record.2) =
      (sortRecords records).map fun record => entryOf record.1 record.2 := by
  unfold sortEntries sortRecords
  rw [List.map_mergeSort]
  intro left _ right _
  rw [entryOf_path, entryOf_path]

/-- What `collect_entries` has checked. -/
structure Collected (root : Directory) (entries : List Entry) : Prop where
  regular : root.Regular
  sorted : entries = (sortRecords root.records).map fun record => entryOf record.1 record.2
  ascending : entries.Pairwise fun left right => left.path < right.path
  few : entries.length < 2 ^ 32
  fits : ∀ record ∈ root.records, Fits record.1 record.2
  topology : ∀ entry ∈ entries, ∀ separator ∈ lastSlash entry.path,
    ∃ directory ∈ entries, directory.kind = .directory ∧ directory.path = entry.path.take separator

theorem collectEntries_ok {root : Directory} {entries : List Entry} (h : collectEntries root = .ok entries) :
    Collected root entries := by
  obtain ⟨⟨collected, total⟩, inner, h⟩ := Checks.bind_ok.mp h
  obtain ⟨regular, rfl, fits⟩ := collectDirectory_ok root [] [] 0 _ _ inner
  have sorted : sortEntries ([] ++ root.places.map fun place => entryOf (pathOf ([] ++ place.1)) place.2) =
      (sortRecords root.records).map fun record => entryOf record.1 record.2 := by
    rw [← sortEntries_records, Directory.records, List.map_map]
    rfl
  dsimp only at h
  rw [sorted] at h
  split at h
  · cases h
  · rename_i checked
    push Not at checked
    obtain ⟨u, topology, h⟩ := Checks.bind_ok.mp h
    cases h
    refine ⟨regular, rfl, ?_, ?_, ?_, ?_⟩
    · exact List.isChain_iff_pairwise.mp checked.2
    · have := checked.1
      unfold maxEntries at this
      omega
    · intro record member
      obtain ⟨place, there, rfl⟩ := List.mem_map.mp member
      exact fits place there
    · unfold validateTopology at topology
      dsimp only at topology
      split at topology
      · rename_i parents
        intro entry member separator at_last
        obtain ⟨directory, there, same⟩ := List.mem_map.mp (parents entry member separator at_last)
        obtain ⟨there, kind⟩ := List.mem_filter.mp there
        exact ⟨directory, there, of_decide_eq_true kind, same⟩
      · cases topology

section
variable {root : Directory} {entries : List Entry}

theorem Collected.pairwise (collected : Collected root entries) :
    (sortRecords root.records).Pairwise fun left right => left.1 < right.1 := by
  have ascending := collected.ascending
  rw [collected.sorted, List.pairwise_map] at ascending
  simpa only [entryOf_path] using ascending

theorem mem_sortRecords {records : List (Bytes × Node)} {record : Bytes × Node} : record ∈ sortRecords records ↔ record ∈ records :=
  List.mem_mergeSort

theorem nodup_of_pairwise {records : List (Bytes × Node)} (ascending : records.Pairwise fun left right => left.1 < right.1) :
    (records.map (·.1)).Nodup := by
  rw [List.nodup_iff_pairwise_ne, List.pairwise_map]
  refine ascending.imp ?_
  intro left right less same
  rw [same] at less
  exact List.lt_irrefl _ less

theorem nodup_of_ascending {records : List (Bytes × Node)} (ascending : records.Pairwise fun left right => left.1 < right.1) :
    records.Nodup := List.Nodup.of_map _ (nodup_of_pairwise ascending)

theorem Collected.distinct (collected : Collected root entries) : (root.places.map (·.1)).Nodup := by
  have sorted := nodup_of_pairwise collected.pairwise
  have paths : (root.records.map (·.1)).Nodup := ((List.mergeSort_perm root.records _).map (·.1)).nodup_iff.mp sorted
  refine List.Nodup.of_map pathOf ?_
  rw [Directory.records, List.map_map] at paths
  rw [List.map_map]
  exact paths

theorem emitRecord_ok (collected : Collected root entries) {record : Bytes × Node} (member : record ∈ root.records) :
    emitRecord root (entryOf record.1 record.2) = .ok (recordOf record) := by
  obtain ⟨⟨names, node⟩, there, rfl⟩ := List.mem_map.mp member
  have fits := collected.fits _ member
  obtain ⟨first, below, -, rfl, -⟩ := places_head there
  unfold emitRecord
  rw [entryOf_path, if_neg (not_le.mpr fits.1)]
  cases node with
  | directory =>
      refine congrArg Except.ok ?_
      simp [recordHeader, recordOf, entryOf, EntryKind.code]
  | file executable content =>
      have opened : openRelativeFile root (pathOf (first :: below)) = .ok content := by
        unfold openRelativeFile
        rw [splitOn_pathOf (List.cons_ne_nil _ _)]
        exact openComponents_places collected.regular collected.distinct there
      have copied := copyFile_whole content.length content rfl
      simp only [entryOf, opened, bind, Except.bind, copied]
      refine congrArg Except.ok ?_
      simp [recordHeader, recordOf, EntryKind.code]

theorem emitRecords_ok (collected : Collected root entries) (records : List (Bytes × Node)) (all : ∀ record ∈ records, record ∈ root.records) :
    emitRecords root (records.map fun record => entryOf record.1 record.2) = .ok (records.flatMap recordOf) := by
  induction records with
  | nil => rfl
  | cons record records ih =>
      obtain ⟨first, rest⟩ := List.forall_mem_cons.mp all
      rw [List.map_cons, emitRecords, emitRecord_ok collected first, ih rest]
      rfl

/-- The format for some records. -/
def streamOf (records : List (Bytes × Node)) : Bytes := magic ++ be 4 records.length ++ records.flatMap recordOf

theorem emitEntries_ok (collected : Collected root entries) :
    emitEntries root entries = .ok (streamOf (sortRecords root.records)) := by
  have few := collected.few
  have emitted := emitRecords_ok collected (sortRecords root.records) fun record member => mem_sortRecords.mp member
  unfold emitEntries
  rw [collected.sorted] at few ⊢
  rw [if_neg (not_le.mpr few), emitted, List.length_map]
  rfl

end

/-! ## Reading a stream -/

theorem readRecord_recordOf (record : Bytes × Node) (fits : Fits record.1 record.2) (rest : Bytes) :
    readRecord (recordOf record ++ rest) = some (record, rest) := by
  obtain ⟨path, node⟩ := record
  obtain ⟨short, small⟩ := fits
  have length : beNat (be 4 path.length) = path.length := beNat_be 4 _ (by norm_num; omega)
  cases node with
  | directory =>
      have split : recordOf (path, .directory) ++ rest = 1 :: (be 4 path.length ++ (path ++ (0 :: rest))) := by simp [recordOf]
      rw [split]
      unfold readRecord
      simp only [List.take_left' (be_length 4 _), List.drop_left' (be_length 4 _), length, List.take_left, List.drop_left, if_true]
  | file executable content =>
      have size : beNat (be 8 content.length) = content.length := by
        have := small executable content rfl
        exact beNat_be 8 _ (by norm_num; omega)
      have split : recordOf (path, .file executable content) ++ rest =
          2 :: (be 4 path.length ++ (path ++ ((if executable then 1 else 0) :: (be 8 content.length ++ (content ++ rest))))) := by
        simp [recordOf]
      rw [split]
      unfold readRecord
      simp only [List.take_left' (be_length 4 _), List.drop_left' (be_length 4 _), List.take_left' (be_length 8 _),
        List.drop_left' (be_length 8 _), length, size, List.take_left, List.drop_left]
      cases executable with
      | false => rfl
      | true => rfl

theorem readRecords_records (records : List (Bytes × Node)) (fits : ∀ record ∈ records, Fits record.1 record.2) (rest : Bytes) :
    readRecords records.length (records.flatMap recordOf ++ rest) = some (records, rest) := by
  induction records with
  | nil => rfl
  | cons record records ih =>
      obtain ⟨first, others⟩ := List.forall_mem_cons.mp fits
      rw [List.length_cons, List.flatMap_cons, List.append_assoc, readRecords, readRecord_recordOf record first]
      simp only [Option.bind_eq_bind, Option.bind_some, ih others]

theorem readTree_streamOf (records : List (Bytes × Node)) (few : records.length < 2 ^ 32)
    (fits : ∀ record ∈ records, Fits record.1 record.2) : readTree (streamOf records) = some records := by
  have count : beNat (be 4 records.length) = records.length := beNat_be 4 _ (by norm_num; omega)
  have read := readRecords_records records fits []
  rw [List.append_nil] at read
  unfold readTree streamOf
  rw [List.append_assoc, List.take_left, List.drop_left, if_neg (not_not.mpr rfl)]
  dsimp only
  rw [List.take_left' (be_length 4 _), List.drop_left' (be_length 4 _), count, read]

section
variable {root : Directory} {entries : List Entry}

theorem Collected.reads (collected : Collected root entries) :
    readTree (streamOf (sortRecords root.records)) = some (sortRecords root.records) := by
  refine readTree_streamOf _ ?_ fun record member => collected.fits record (mem_sortRecords.mp member)
  have few := collected.few
  rwa [collected.sorted, List.length_map] at few

/-- Sorted records of one set are one list. -/
theorem sortRecords_eq {other : Directory} {others : List Entry} (collected : Collected root entries)
    (collected' : Collected other others) : sortRecords root.records = sortRecords other.records ↔ root.tree = other.tree := by
  constructor
  · intro same
    ext record
    exact mem_sortRecords.symm.trans (same ▸ mem_sortRecords)
  · intro same
    have perm : (sortRecords root.records).Perm (sortRecords other.records) := by
      rw [List.perm_ext_iff_of_nodup (nodup_of_ascending collected.pairwise) (nodup_of_ascending collected'.pairwise)]
      intro record
      rw [mem_sortRecords, mem_sortRecords]
      exact Set.ext_iff.mp same record
    refine perm.eq_of_pairwise ?_ collected.pairwise collected'.pairwise
    intro left right _ _ less more
    exact absurd (List.lt_trans less more) (List.lt_irrefl _)

/-- Every directory has an earlier record than what is in it. -/
def DirectoriesFirst (entries : List Entry) : Prop :=
  ∀ (i : Nat) (entry : Entry) (parent last : Bytes), entries[i]? = some entry → entry.path = parent ++ slash :: last → slash ∉ last →
    ∃ (j : Nat) (directory : Entry), j < i ∧ entries[j]? = some directory ∧ directory.kind = .directory ∧ directory.path = parent

theorem Collected.directoriesFirst (collected : Collected root entries) : DirectoriesFirst entries := by
  intro i entry parent last at_i path noSlash
  have separated : parent.length ∈ lastSlash entry.path := by
    rw [path, lastSlash_append noSlash]
    rfl
  obtain ⟨directory, there, kind, same⟩ := collected.topology entry (List.mem_of_getElem? at_i) _ separated
  rw [path, List.take_left] at same
  obtain ⟨j, at_j⟩ := List.getElem?_of_mem there
  refine ⟨j, directory, ?_, at_j, kind, same⟩
  have before : directory.path < entry.path := by
    rw [same, path]
    have longer : parent ++ [] < parent ++ slash :: last := List.append_left_lt (List.nil_lt_cons slash last)
    rwa [List.append_nil] at longer
  by_contra later
  rcases Nat.lt_or_eq_of_le (Nat.le_of_not_lt later) with less | rfl
  · have ordered := List.pairwise_iff_getElem.mp collected.ascending i j
    obtain ⟨inside, found⟩ := List.getElem?_eq_some_iff.mp at_i
    obtain ⟨inside', found'⟩ := List.getElem?_eq_some_iff.mp at_j
    have up := ordered inside inside' less
    rw [found, found'] at up
    exact List.lt_irrefl _ (List.lt_trans before up)
  · rw [at_i] at at_j
    cases at_j
    exact List.lt_irrefl _ before

end

/-- Two trees that are collected are streamed, and have one stream, and one digest, exactly when
    they are one tree. The records ascend and stand behind their directories; what is read back
    is the tree. -/
theorem artifact_identity {first second : Directory} {entries entries' : List Entry}
    (collected : collectEntries first = .ok entries) (collected' : collectEntries second = .ok entries') :
    ∃ stream stream', emitEntries first entries = .ok stream ∧ emitEntries second entries' = .ok stream' ∧
      (stream = stream' ↔ first.tree = second.tree) ∧
      (∀ {Digest : Type} (sha256 : Bytes → Digest), Function.Injective sha256 →
        (hashEntries sha256 first entries = hashEntries sha256 second entries' ↔ first.tree = second.tree)) ∧
      (entries.Pairwise fun left right => left.path < right.path) ∧
      DirectoriesFirst entries ∧
      ∃ records, readTree stream = some records ∧ records.Nodup ∧ ∀ record, record ∈ records ↔ record ∈ first.tree := by
  have known := collectEntries_ok collected
  have known' := collectEntries_ok collected'
  have streams : streamOf (sortRecords first.records) = streamOf (sortRecords second.records) ↔ first.tree = second.tree := by
    rw [← sortRecords_eq known known']
    refine ⟨fun same => ?_, fun same => by rw [same]⟩
    have read := congrArg readTree same
    rw [known.reads, known'.reads] at read
    exact Option.some.inj read
  refine ⟨_, _, emitEntries_ok known, emitEntries_ok known', streams, fun sha256 injective => ?_, known.ascending,
    known.directoriesFirst, _, known.reads, nodup_of_ascending known.pairwise, fun record => mem_sortRecords⟩
  unfold hashEntries
  rw [emitEntries_ok known, emitEntries_ok known', ← streams]
  exact ⟨fun same => injective (Except.ok.inj same), fun same => congrArg (fun stream => Except.ok (sha256 stream)) same⟩

/-- Sorting finds what is in order. -/
theorem sortEntries_perm {entries sorted : List Entry} (perm : entries.Perm sorted)
    (ascending : sorted.Pairwise fun left right => left.path < right.path) : sortEntries entries = sorted := by
  have distinct : (sorted.map (·.path)).Nodup := by
    rw [List.nodup_iff_pairwise_ne, List.pairwise_map]
    refine ascending.imp fun less same => ?_
    rw [same] at less
    exact List.lt_irrefl _ less
  have mine : (sortEntries entries).Pairwise fun left right => ¬ right.path < left.path := by
    have ordered := @List.pairwise_mergeSort _ (fun left right : Entry => decide (¬ right.path < left.path))
      (fun a b c ab bc => decide_eq_true (List.le_trans (of_decide_eq_true ab) (of_decide_eq_true bc)))
      (fun a b => by
        rcases List.le_total a.path b.path with le | le
        · exact Bool.or_eq_true_iff.mpr (.inl (decide_eq_true le))
        · exact Bool.or_eq_true_iff.mpr (.inr (decide_eq_true le))) entries
    exact ordered.imp fun le => of_decide_eq_true le
  have theirs : sorted.Pairwise fun left right => ¬ right.path < left.path :=
    ascending.imp fun less more => List.lt_irrefl _ (List.lt_trans less more)
  have both := (List.mergeSort_perm entries fun left right => decide (¬ right.path < left.path)).trans perm
  refine both.eq_of_pairwise ?_ mine theirs
  intro a b member member' le le'
  exact List.inj_on_of_nodup_map distinct (both.mem_iff.mp member) member' (List.le_antisymm le le')

def letter (b : UInt8) (noSlash : b ≠ slash) : Name :=
  ⟨[b], List.cons_ne_nil _ _, fun member => noSlash (List.mem_singleton.mp member).symm⟩

/-- A directory `a` with an empty file `b`, and a file `c` beside it, in two orders. -/
def inOrder : Directory :=
  .directory (letter 0x61 (by decide)) (.file (letter 0x62 (by decide)) false [] .empty)
    (.file (letter 0x63 (by decide)) true [7] .empty)

def reversed : Directory :=
  .file (letter 0x63 (by decide)) true [7]
    (.directory (letter 0x61 (by decide)) (.file (letter 0x62 (by decide)) false [] .empty) .empty)

theorem artifact_identity_reversed :
    ∃ entries entries', collectEntries inOrder = .ok entries ∧ collectEntries reversed = .ok entries' ∧
      emitEntries inOrder entries = emitEntries reversed entries' := by
  have sorted : sortEntries [⟨[0x61], .directory, false, 0⟩, ⟨[0x61, 0x2f, 0x62], .file, false, 0⟩, ⟨[0x63], .file, true, 1⟩] =
      [⟨[0x61], .directory, false, 0⟩, ⟨[0x61, 0x2f, 0x62], .file, false, 0⟩, ⟨[0x63], .file, true, 1⟩] :=
    sortEntries_perm (by decide) (by decide)
  have sorted' : sortEntries [⟨[0x63], .file, true, 1⟩, ⟨[0x61], .directory, false, 0⟩, ⟨[0x61, 0x2f, 0x62], .file, false, 0⟩] =
      [⟨[0x61], .directory, false, 0⟩, ⟨[0x61, 0x2f, 0x62], .file, false, 0⟩, ⟨[0x63], .file, true, 1⟩] :=
    sortEntries_perm (by decide) (by decide)
  have inner : collectDirectory inOrder [] [] 0 =
      .ok ([⟨[0x61], .directory, false, 0⟩, ⟨[0x61, 0x2f, 0x62], .file, false, 0⟩, ⟨[0x63], .file, true, 1⟩], 1) := by decide +kernel
  have inner' : collectDirectory reversed [] [] 0 =
      .ok ([⟨[0x63], .file, true, 1⟩, ⟨[0x61], .directory, false, 0⟩, ⟨[0x61, 0x2f, 0x62], .file, false, 0⟩], 1) := by decide +kernel
  have ordered : collectEntries inOrder = .ok [⟨[0x61], .directory, false, 0⟩, ⟨[0x61, 0x2f, 0x62], .file, false, 0⟩,
      ⟨[0x63], .file, true, 1⟩] := by
    unfold collectEntries
    simp only [inner, bind, Except.bind, sorted]
    decide +kernel
  have other : collectEntries reversed = .ok [⟨[0x61], .directory, false, 0⟩, ⟨[0x61, 0x2f, 0x62], .file, false, 0⟩,
      ⟨[0x63], .file, true, 1⟩] := by
    unfold collectEntries
    simp only [inner', bind, Except.bind, sorted']
    decide +kernel
  obtain ⟨stream, stream', emitted, emitted', same, -⟩ := artifact_identity ordered other
  refine ⟨_, _, ordered, other, ?_⟩
  rw [emitted, emitted', same.mpr]
  ext record
  simp [Directory.tree, inOrder, reversed, Directory.places]
  tauto

end AppPilotKit.Adapter.Artifact
