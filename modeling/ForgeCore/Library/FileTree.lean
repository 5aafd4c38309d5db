import Mathlib

/-!
# File trees

A tree of directories and regular files, by path from the root.  The parent
of everything in the tree is a directory; a value that breaks this cannot be
built.  What a replacement or a removal displaces is kept as a quarantine file
beside the path.  Quarantine files have random names that nothing refers to,
so they stand in a list of their own.
-/

namespace ForgeCore

open List

abbrev Path := List String

instance Path.decidableMem (path : Path) (paths : List Path) : Decidable (path ∈ paths) :=
  inferInstance

abbrev Content := List UInt8

/-- A shared file has a second name among the quarantine files. -/
inductive Entry where
  | file (content : Content) (shared : Bool)
  | directory
deriving DecidableEq, Repr

/-- A file that was moved aside. -/
structure Quarantined where
  directory : Path
  content : Content
deriving DecidableEq, Repr

/-- Files by path, the directories, and the quarantine. -/
structure FileTree where
  entry : Path → Option Entry
  root : entry [] = some .directory
  parent : ∀ path name, entry (path ++ [name]) ≠ none → entry path = some .directory
  quarantine : List Quarantined

inductive IoError where
  | notFound
  | notADirectory
  | isADirectory
  | invalidInput (message : String)
  | invalidData (message : String)
  | permissionDenied (message : String)
deriving DecidableEq, Repr

def IoError.message : IoError → String
  | notFound => "No such file or directory (os error 2)"
  | notADirectory => "Not a directory (os error 20)"
  | isADirectory => "Is a directory (os error 21)"
  | invalidInput message => message
  | invalidData message => message
  | permissionDenied message => message

namespace FileTree

def empty : FileTree where
  entry path := if path = [] then some .directory else none
  root := rfl
  parent path name present := by simp at present
  quarantine := []

def file (tree : FileTree) (path : Path) : Option (Content × Bool) :=
  match tree.entry path with
  | some (.file content shared) => some (content, shared)
  | _ => none

def content (tree : FileTree) (path : Path) : Option Content :=
  (tree.file path).map Prod.fst

def isFile (tree : FileTree) (path : Path) : Bool :=
  (tree.content path).isSome

/-- `inner` lies strictly below `outer`. -/
def Below (inner outer : Path) : Prop :=
  outer.length < inner.length ∧ inner.take outer.length = outer

instance (inner outer : Path) : Decidable (Below inner outer) :=
  inferInstanceAs (Decidable (_ ∧ _))

/-- Neither path lies below the other. -/
def Apart (first second : Path) : Prop :=
  ¬ Below first second ∧ ¬ Below second first

instance (first second : Path) : Decidable (Apart first second) :=
  inferInstanceAs (Decidable (_ ∧ _))

def behindFile (tree : FileTree) (path : Path) : Bool :=
  (List.range path.length).any fun depth => tree.isFile (path.take depth)

/-- A regular file is at the path, or can be made there. -/
def creatable (tree : FileTree) (path : Path) : Bool :=
  path ≠ [] && !tree.behindFile path && tree.entry path != some .directory

/-- A file at the path may be written in place, or can be made there. -/
def appendable (tree : FileTree) (path : Path) : Bool :=
  tree.creatable path && !(tree.file path).any Prod.snd

variable {tree : FileTree} {path outer other : Path} {bytes : Content}

theorem behindFile_eq_false :
    tree.behindFile path = false ↔ ∀ outer, Below path outer → tree.content outer = none := by
  simp only [behindFile, isFile, any_eq_false, mem_range, Option.isSome_iff_ne_none, ne_eq, not_not]
  constructor
  · intro clear outer below
    have known := clear outer.length below.1
    rwa [below.2] at known
  · intro clear depth small
    apply clear
    constructor
    · rw [length_take]
      omega
    · rw [length_take, Nat.min_eq_left (by omega)]

variable {name : String} {inner : Path} {current expected : Option Content}

theorem below_concat : Below (path ++ [name]) path := by
  simp [Below]

theorem below_trans (first : Below inner middle) (second : Below middle outer) :
    Below inner outer := by
  constructor
  · exact second.1.trans first.1
  · have taken := congrArg (List.take outer.length) first.2
    rw [take_take, Nat.min_eq_left (by have := second.1; omega)] at taken
    rw [taken, second.2]

theorem below_concat_iff : Below (path ++ [name]) outer ↔ outer = path ∨ Below path outer := by
  constructor
  · intro below
    by_cases short : outer.length < path.length
    · right
      refine ⟨short, ?_⟩
      have taken := below.2
      rwa [take_append_of_le_length (by omega)] at taken
    · left
      have length := below.1
      rw [length_append, length_singleton] at length
      have taken := below.2
      have same : outer.length = path.length := by omega
      rw [same, take_left] at taken
      exact taken.symm
  · rintro (rfl | below)
    · exact below_concat
    · exact below_trans below_concat below

theorem entry_of_below
    (tree : FileTree) (present : tree.entry inner ≠ none) (below : Below inner outer) :
    tree.entry outer = some .directory := by
  induction inner using List.reverseRecOn with
  | nil => exact absurd below.1 (by simp)
  | append_singleton path name ih =>
    have parentEntry := tree.parent path name present
    rcases below_concat_iff.mp below with rfl | deeper
    · exact parentEntry
    · exact ih (by rw [parentEntry]; simp) deeper

theorem content_eq_some :
    tree.content path = some bytes ↔
      ∃ shared, tree.entry path = some (.file bytes shared) := by
  unfold content file
  cases tree.entry path with
  | none => simp
  | some found =>
    cases found with
    | file other shared => simp
    | directory => simp

theorem creatable_iff : tree.creatable path = true ↔
      path ≠ [] ∧ (∀ outer, Below path outer → tree.content outer = none) ∧
      tree.entry path ≠ some .directory := by
  simp only [creatable, Bool.and_eq_true, decide_eq_true_eq,
    Bool.not_eq_true', behindFile_eq_false, bne_iff_ne, ne_eq, and_assoc]

theorem creatable_of_content (found : tree.content path = some bytes) :
    tree.creatable path = true := by
  obtain ⟨shared, entry⟩ := content_eq_some.mp found
  refine creatable_iff.mpr ⟨?_, ?_, ?_⟩
  · rintro rfl
    rw [tree.root] at entry
    simp at entry
  · intro outer below
    have directory := tree.entry_of_below (by rw [entry]; simp) below
    simp [content, file, directory]
  · rw [entry]
    simp

def makeParents (tree : FileTree) (path : Path)
    (clear : tree.behindFile path = false) : FileTree where
  entry other :=
    if Below path other ∧ tree.entry other = none then some .directory
    else tree.entry other
  root := by simp [tree.root]
  parent outer name present := by
    by_cases inside : Below path (outer ++ [name])
    · have above : Below path outer := below_trans inside below_concat
      cases found : tree.entry outer with
      | none => simp [above]
      | some entry =>
        cases entry with
        | directory => simp
        | file bytes shared =>
          have none := behindFile_eq_false.mp clear outer above
          rw [content_eq_some.mpr ⟨shared, found⟩] at none
          simp at none
    · simp only [inside, false_and, if_false] at present
      simp [tree.parent outer name present]
  quarantine := tree.quarantine

/-- A regular file with the given content, and the directories above it. -/
def install (tree : FileTree) (path : Path) (bytes : Content) (shared : Bool)
    (ready : tree.creatable path = true) : FileTree :=
  have known := creatable_iff.mp ready
  have clear := behindFile_eq_false.mpr known.2.1
  { entry := fun other =>
      if other = path then some (.file bytes shared)
      else (tree.makeParents path clear).entry other
    root := by
      rw [if_neg (Ne.symm known.1)]
      exact (tree.makeParents path clear).root
    parent := fun outer name present => by
      by_cases last : outer ++ [name] = path
      · subst last
        have differs : outer ≠ outer ++ [name] := by simp
        rw [if_neg differs]
        have none := known.2.1 outer below_concat
        cases found : tree.entry outer with
        | none => simp [makeParents, found, below_concat]
        | some entry =>
          cases entry with
          | directory => simp [makeParents, found]
          | file other shared =>
            rw [content_eq_some.mpr ⟨shared, found⟩] at none
            simp at none
      · rw [if_neg last] at present
        have directory := (tree.makeParents path clear).parent outer name present
        by_cases same : outer = path
        · subst same
          have loop : ¬ Below outer outer := fun below =>
            absurd below.1 (lt_irrefl _)
          simp only [makeParents, loop, false_and, if_false] at directory
          exact absurd directory known.2.2
        · rw [if_neg same]
          exact directory
    quarantine := tree.quarantine }

def remove (tree : FileTree) (path : Path) (found : tree.isFile path = true) : FileTree :=
  have entry : ∃ bytes shared, tree.entry path = some (.file bytes shared) := by
    obtain ⟨bytes, known⟩ := Option.isSome_iff_exists.mp found
    exact ⟨bytes, content_eq_some.mp known⟩
  { entry := fun other => if other = path then none else tree.entry other
    root := by
      obtain ⟨bytes, shared, known⟩ := entry
      rw [if_neg, tree.root]
      rintro rfl
      rw [tree.root] at known
      simp at known
    parent := fun outer name present => by
      obtain ⟨bytes, shared, known⟩ := entry
      split at present
      · exact absurd rfl present
      · have directory := tree.parent outer name present
        rw [if_neg, directory]
        rintro rfl
        rw [known] at directory
        simp at directory
    quarantine := tree.quarantine }

def isolate (tree : FileTree) (files : List Quarantined) : FileTree :=
  { tree with quarantine := tree.quarantine ++ files }

/-- A new file at the path.  An old one is exchanged for it and kept; where
there was none, the new file keeps the second name that it was linked from. -/
def replace (tree : FileTree) (path : Path) (bytes : Content)
    (ready : tree.creatable path = true) : FileTree :=
  match tree.content path with
  | some old => (tree.install path bytes false ready).isolate [⟨path.dropLast, old⟩]
  | none =>
    (tree.install path bytes true ready).isolate [⟨path.dropLast, bytes⟩, ⟨path.dropLast, []⟩]

/-- The file is exchanged for an empty one, and both are kept. -/
def retire (tree : FileTree) (path : Path) (found : tree.isFile path = true) : FileTree :=
  (tree.remove path found).isolate
    [⟨path.dropLast, (tree.content path).getD []⟩, ⟨path.dropLast, []⟩]

def notRegularMessage : String :=
  "retained leaf is not a regular, non-reparse file with the required " ++ "link shape"

def changedMessage : String :=
  "retained authority leaf changed after exact state capture"

def read (tree : FileTree) (path : Path) : Except IoError Content :=
  if path = [] then
    .error (.invalidInput "empty child path")
  else if tree.behindFile path then
    .error .notADirectory
  else
    match tree.entry path with
    | some (.file bytes _) => .ok bytes
    | some .directory => .error (.invalidData notRegularMessage)
    | none => .error .notFound

/-- The directory is opened by its names, of which there must be one. -/
def syncDirectory (tree : FileTree) (path : Path) : Except IoError Unit :=
  if path = [] then
    .error (.invalidInput "empty child path")
  else if tree.behindFile path then
    .error .notADirectory
  else
    match tree.entry path with
    | some .directory => .ok ()
    | some (.file ..) => .error .notADirectory
    | none => .error .notFound

/-- The check made under the replacement: the file is still as expected. -/
def expectedError (current expected : Option Content) : Option IoError :=
  match expected, current with
  | some wanted, some found =>
    if found = wanted then none else some (.invalidData changedMessage)
  | none, some _ => some (.invalidData changedMessage)
  | none, none => none
  | some _, none => some .notFound

def replaceFile (path : Path) (bytes : Content) (expected : Option Content) (tree : FileTree) :
    FileTree × Except IoError Unit :=
  if path = [] then
    (tree, .error (.invalidInput "empty child path"))
  else if clear : tree.behindFile path = false then
    if ready : tree.creatable path = true then
      match expectedError (tree.content path) expected with
      | some failure =>
        -- The new content has been written beside the path by then.
        ((tree.makeParents path clear).isolate [⟨path.dropLast, bytes⟩], .error failure)
      | none => (tree.replace path bytes ready, .ok ())
    else
      (tree, .error (.invalidData notRegularMessage))
  else
    (tree, .error .notADirectory)

def removeFile (path : Path) (expected : Content) (tree : FileTree) :
    FileTree × Except IoError Unit :=
  match tree.read path with
  | .error failure => (tree, .error failure)
  | .ok _ =>
    match expectedError (tree.content path) (some expected) with
    | some failure => (tree, .error failure)
    | none =>
      if found : tree.isFile path = true then
        (tree.retire path found, .ok ())
      else
        (tree, .error .notFound)

/-- Open a file for writing, or create it, and write at its end. -/
def appendFile (path : Path) (bytes : Content) (tree : FileTree) : FileTree × Except IoError Unit :=
  if path = [] then
    (tree, .error (.invalidInput "empty child path"))
  else if tree.behindFile path then
    (tree, .error .notADirectory)
  else if ready : tree.creatable path = true then
    if (tree.file path).any Prod.snd then
      (tree, .error (.invalidData notRegularMessage))
    else
      (tree.install path ((tree.content path).getD [] ++ bytes) false ready, .ok ())
  else
    (tree, .error .isADirectory)

def readOptional (tree : FileTree) (path : Path) : Except IoError (Option Content) :=
  match tree.read path with
  | .ok bytes => .ok (some bytes)
  | .error .notFound => .ok none
  | .error failure => .error failure

section Files

variable (tree : FileTree) (path other : Path) (bytes : Content)

@[simp] theorem file_makeParents (clear : tree.behindFile path = false) :
    (tree.makeParents path clear).file other = tree.file other := by
  by_cases missing : Below path other ∧ tree.entry other = none
  · simp [file, makeParents, missing]
  · simp only [file, makeParents, if_neg missing]

@[simp] theorem file_install
    (shared : Bool) (ready : tree.creatable path = true) :
    (tree.install path bytes shared ready).file other =
      if other = path then some (bytes, shared) else tree.file other := by
  by_cases same : other = path
  · simp [file, install, same]
  · have clear := behindFile_eq_false.mpr (creatable_iff.mp ready).2.1
    rw [if_neg same, ← file_makeParents tree path other clear]
    simp only [file, install, if_neg same]

@[simp] theorem file_remove (found : tree.isFile path = true) :
    (tree.remove path found).file other = if other = path then none else tree.file other := by
  by_cases same : other = path
  · simp [file, remove, same]
  · simp [file, remove, same]

@[simp] theorem file_isolate (files : List Quarantined) :
    (tree.isolate files).file other = tree.file other := rfl

@[simp] theorem creatable_isolate (files : List Quarantined) :
    (tree.isolate files).creatable other = tree.creatable other := rfl

@[simp] theorem content_install
    (shared : Bool) (ready : tree.creatable path = true) :
    (tree.install path bytes shared ready).content other =
      if other = path then some bytes else tree.content other := by
  unfold content
  rw [file_install]
  split
  · rfl
  · rfl

@[simp] theorem content_replace (ready : tree.creatable path = true) :
    (tree.replace path bytes ready).content other =
      if other = path then some bytes else tree.content other := by
  unfold replace
  split
  · exact content_install tree path other bytes false ready
  · exact content_install tree path other bytes true ready

@[simp] theorem content_retire (found : tree.isFile path = true) :
    (tree.retire path found).content other = if other = path then none else tree.content other := by
  unfold retire content
  rw [file_isolate, file_remove]
  split
  · rfl
  · rfl

end Files

theorem read_eq_ok : tree.read path = .ok bytes ↔ tree.content path = some bytes := by
  constructor
  · intro found
    unfold read at found
    split_ifs at found
    split at found
    · next bytes shared entry =>
      cases found
      exact content_eq_some.mpr ⟨shared, entry⟩
    · cases found
    · cases found
  · intro found
    obtain ⟨named, clear, -⟩ := creatable_iff.mp (creatable_of_content found)
    obtain ⟨shared, entry⟩ := content_eq_some.mp found
    rw [read, if_neg named, behindFile_eq_false.mpr clear]
    simp [entry]

theorem read_eq_notFound :
    tree.read path = .error .notFound ↔ tree.creatable path = true ∧ tree.content path = none := by
  rw [creatable_iff, ← behindFile_eq_false]
  unfold read content file
  constructor
  · intro missing
    split_ifs at missing with named behind
    · cases missing
    · cases missing
    · split at missing
      · cases missing
      · cases missing
      · next entry => simp [named, behind, entry]
  · rintro ⟨⟨named, clear, notDirectory⟩, missing⟩
    rw [if_neg named, clear]
    cases found : tree.entry path with
    | none => simp
    | some entry =>
      cases entry with
      | file bytes shared => simp [found] at missing
      | directory => exact absurd found notDirectory

theorem readOptional_eq_ok : tree.readOptional path = .ok current ↔
      tree.creatable path = true ∧ tree.content path = current := by
  unfold readOptional
  cases current with
  | some bytes =>
    constructor
    · intro found
      split at found
      · next other readOk =>
        cases found
        have known := read_eq_ok.mp readOk
        exact ⟨creatable_of_content known, known⟩
      · cases found
      · cases found
    · rintro ⟨-, found⟩
      rw [read_eq_ok.mpr found]
  | none =>
    constructor
    · intro found
      split at found
      · cases found
      · next missing => exact read_eq_notFound.mp missing
      · cases found
    · intro missing
      rw [read_eq_notFound.mpr missing]

theorem expectedError_eq_none : expectedError current expected = none ↔ current = expected := by
  cases expected with
  | none => cases current <;> simp [expectedError]
  | some wanted =>
    cases current with
    | none => simp [expectedError]
    | some found => simp [expectedError]

theorem syncDirectory_retire
    (found : tree.isFile path = true) (nested : path.dropLast ≠ []) :
    (tree.retire path found).syncDirectory path.dropLast = .ok () := by
  obtain ⟨bytes, known⟩ := Option.isSome_iff_exists.mp found
  obtain ⟨shared, entry⟩ := content_eq_some.mp known
  have named : path ≠ [] := by
    rintro rfl
    exact nested rfl
  have whole : path.dropLast ++ [path.getLast named] = path := dropLast_append_getLast named
  have below : Below path path.dropLast := by
    rw [← whole, dropLast_concat]
    exact below_concat
  have directory : tree.entry path.dropLast = some .directory :=
    tree.entry_of_below (by rw [entry]; simp) below
  have differs : path.dropLast ≠ path := by
    intro same
    rw [same] at below
    exact absurd below.1 (lt_irrefl _)
  have clear : (tree.retire path found).behindFile path.dropLast = false := by
    refine behindFile_eq_false.mpr fun outer deeper => ?_
    rw [content_retire]
    split
    · rfl
    · have outerEntry := tree.entry_of_below (by rw [directory]; simp) deeper
      simp [content, file, outerEntry]
  have still : (tree.retire path found).entry path.dropLast = some .directory :=
    (if_neg differs).trans directory
  unfold syncDirectory
  rw [if_neg nested, clear, still]
  rfl

theorem apart_of_content
    (found : tree.content path = some bytes) (ready : tree.creatable other = true) :
    Apart other path := by
  obtain ⟨-, above, notDirectory⟩ := creatable_iff.mp ready
  constructor
  · intro below
    rw [above path below] at found
    cases found
  · intro below
    obtain ⟨shared, entry⟩ := content_eq_some.mp found
    exact notDirectory (tree.entry_of_below (by rw [entry]; simp) below)

theorem creatable_makeParents
    (clear : tree.behindFile path = false) (otherReady : tree.creatable other = true)
    (notAbove : ¬ Below path other) : (tree.makeParents path clear).creatable other = true := by
  obtain ⟨named, above, notDirectory⟩ := creatable_iff.mp otherReady
  refine creatable_iff.mpr ⟨named, ?_, ?_⟩
  · intro outer below
    unfold content
    rw [file_makeParents]
    exact above outer below
  · simpa [makeParents, notAbove] using notDirectory

theorem creatable_install
    {shared : Bool} (ready : tree.creatable path = true)
    (otherReady : tree.creatable other = true) (apart : Apart path other) :
    (tree.install path bytes shared ready).creatable other = true := by
  obtain ⟨named, above, notDirectory⟩ := creatable_iff.mp otherReady
  refine creatable_iff.mpr ⟨named, ?_, ?_⟩
  · intro outer below
    have differs : outer ≠ path := by
      rintro rfl
      exact apart.2 below
    rw [content_install, if_neg differs]
    exact above outer below
  · by_cases same : other = path
    · simp [install, same]
    · simpa [install, makeParents, same, apart.1] using notDirectory

theorem creatable_retire
    (found : tree.isFile path = true) (otherReady : tree.creatable other = true) :
    (tree.retire path found).creatable other = true := by
  obtain ⟨named, above, notDirectory⟩ := creatable_iff.mp otherReady
  refine creatable_iff.mpr ⟨named, ?_, ?_⟩
  · intro outer below
    rw [content_retire]
    split
    · rfl
    · exact above outer below
  · by_cases same : other = path
    · simp [retire, isolate, remove, same]
    · simpa [retire, isolate, remove, same] using notDirectory

/-- The quarantine has only grown, and beside the given paths. -/
def Isolated (paths : Set Path) (before after : FileTree) : Prop :=
  ∃ added, after.quarantine = before.quarantine ++ added ∧
    ∀ kept ∈ added, ∃ path ∈ paths, kept.directory = path.dropLast

/-- What operations on the given paths leave alone: the other files, the
paths apart from them where a file can be made, and the quarantine, which only
grows. -/
structure Confined (paths : Set Path) (before after : FileTree) : Prop where
  file : ∀ other, other ∉ paths → after.file other = before.file other
  creatable : ∀ other, (∀ path ∈ paths, Apart path other) →
    before.creatable other = true → after.creatable other = true
  isolated : Isolated paths before after

section Confined

variable {paths wider : Set Path} {before middle after : FileTree}

theorem Isolated.of_eq (same : after.quarantine = before.quarantine) :
    Isolated paths before after :=
  ⟨[], by rw [same, append_nil], by simp⟩

theorem Isolated.trans
    (first : Isolated paths before middle) (second : Isolated paths middle after) :
    Isolated paths before after := by
  obtain ⟨added, firstGrows, firstBeside⟩ := first
  obtain ⟨more, secondGrows, secondBeside⟩ := second
  refine ⟨added ++ more, by rw [secondGrows, firstGrows, append_assoc], ?_⟩
  exact forall_mem_append.mpr ⟨firstBeside, secondBeside⟩

theorem Isolated.mono
    (isolated : Isolated paths before after) (subset : paths ⊆ wider) :
    Isolated wider before after := by
  obtain ⟨added, grows, beside⟩ := isolated
  refine ⟨added, grows, fun kept member => ?_⟩
  obtain ⟨path, inside, same⟩ := beside kept member
  exact ⟨path, subset inside, same⟩

theorem Confined.refl (paths : Set Path) (tree : FileTree) : Confined paths tree tree :=
  ⟨fun _ _ => rfl, fun _ _ ready => ready, Isolated.of_eq rfl⟩

theorem Confined.trans
    (first : Confined paths before middle) (second : Confined paths middle after) :
    Confined paths before after := by
  refine ⟨?_, ?_, first.isolated.trans second.isolated⟩
  · intro other outside
    rw [second.file other outside, first.file other outside]
  · intro other apart ready
    exact second.creatable other apart (first.creatable other apart ready)

theorem Confined.mono
    (confined : Confined paths before after) (subset : paths ⊆ wider) :
    Confined wider before after := by
  refine ⟨?_, ?_, confined.isolated.mono subset⟩
  · intro other outside
    exact confined.file other fun inside => outside (subset inside)
  · intro other apart
    exact confined.creatable other fun path inside => apart path (subset inside)

theorem Confined.content
    (confined : Confined paths before after) (outside : other ∉ paths) :
    after.content other = before.content other := by
  unfold FileTree.content
  rw [confined.file other outside]

theorem isolate_confined
    {files : List Quarantined} (beside : ∀ kept ∈ files, kept.directory = path.dropLast) :
    Confined {path} tree (tree.isolate files) :=
  ⟨fun _ _ => rfl, fun _ _ ready => ready,
    ⟨files, rfl, fun kept member => ⟨path, rfl, beside kept member⟩⟩⟩

theorem makeParents_confined (clear : tree.behindFile path = false) :
    Confined {path} tree (tree.makeParents path clear) := by
  refine ⟨fun other _ => file_makeParents tree path other clear, ?_, Isolated.of_eq rfl⟩
  intro other apart ready
  exact creatable_makeParents clear ready (apart path rfl).1

theorem install_confined {shared : Bool} (ready : tree.creatable path = true) :
    Confined {path} tree (tree.install path bytes shared ready) := by
  refine ⟨?_, ?_, Isolated.of_eq rfl⟩
  · intro other outside
    rw [file_install]
    exact if_neg outside
  · intro other apart otherReady
    exact creatable_install ready otherReady (apart path rfl)

theorem replace_confined (ready : tree.creatable path = true) :
    Confined {path} tree (tree.replace path bytes ready) := by
  unfold replace
  split
  · exact (install_confined ready).trans (isolate_confined (by simp))
  · exact (install_confined ready).trans (isolate_confined (by simp))

theorem retire_confined (found : tree.isFile path = true) :
    Confined {path} tree (tree.retire path found) := by
  refine ⟨?_, fun other _ ready => creatable_retire found ready,
    ⟨[⟨path.dropLast, (tree.content path).getD []⟩, ⟨path.dropLast, []⟩], rfl, by simp⟩⟩
  intro other outside
  unfold retire
  rw [file_isolate, file_remove]
  exact if_neg outside

end Confined

/-! ## What the operations come to -/

theorem replaceFile_cases
    (tree : FileTree) (path : Path) (bytes : Content) (expected : Option Content) :
    (∃ ready, tree.content path = expected ∧
      replaceFile path bytes expected tree = (tree.replace path bytes ready, .ok ())) ∨
      ¬ (tree.creatable path = true ∧ tree.content path = expected) ∧
        ∃ failure after, replaceFile path bytes expected tree = (after, .error failure) ∧
          Confined {path} tree after ∧ after.file path = tree.file path := by
  unfold replaceFile
  split_ifs with unnamed clear ready
  · refine Or.inr ⟨?_, _, _, rfl, Confined.refl _ _, rfl⟩
    exact fun both => (creatable_iff.mp both.1).1 unnamed
  · cases checked : expectedError (tree.content path) expected with
    | none => exact Or.inl ⟨ready, expectedError_eq_none.mp checked, rfl⟩
    | some failure =>
      refine Or.inr ⟨?_, _, _, rfl, ?_, ?_⟩
      · rintro ⟨-, same⟩
        rw [expectedError_eq_none.mpr same] at checked
        cases checked
      · exact (makeParents_confined clear).trans (isolate_confined (by simp))
      · rw [file_isolate, file_makeParents]
  · exact Or.inr ⟨fun both => ready both.1, _, _, rfl, Confined.refl _ _, rfl⟩
  · refine Or.inr ⟨?_, _, _, rfl, Confined.refl _ _, rfl⟩
    exact fun both => clear (behindFile_eq_false.mpr (creatable_iff.mp both.1).2.1)

theorem replaceFile_ok
    (bytes : Content) (ready : tree.creatable path = true)
    (same : tree.content path = expected) :
    replaceFile path bytes expected tree = (tree.replace path bytes ready, .ok ()) := by
  obtain ⟨named, above, -⟩ := creatable_iff.mp ready
  have clear := behindFile_eq_false.mpr above
  unfold replaceFile
  rw [if_neg named, dif_pos clear, dif_pos ready, expectedError_eq_none.mpr same]

theorem removeFile_cases (tree : FileTree) (path : Path) (expected : Content) :
    (∃ found, tree.content path = some expected ∧
      removeFile path expected tree = (tree.retire path found, .ok ())) ∨
      tree.content path ≠ some expected ∧
        ∃ failure, removeFile path expected tree = (tree, .error failure) := by
  unfold removeFile
  cases readResult : tree.read path with
  | error failure =>
    refine Or.inr ⟨?_, failure, rfl⟩
    intro same
    rw [read_eq_ok.mpr same] at readResult
    cases readResult
  | ok bytes =>
    cases checked : expectedError (tree.content path) (some expected) with
    | some failure =>
      refine Or.inr ⟨?_, failure, rfl⟩
      intro same
      rw [expectedError_eq_none.mpr same] at checked
      cases checked
    | none =>
      have same := expectedError_eq_none.mp checked
      have found : tree.isFile path = true := by simp [isFile, same]
      exact Or.inl ⟨found, same, by simp only [dif_pos found]⟩

theorem removeFile_ok
    {expected : Content} (same : tree.content path = some expected) :
    ∃ found, removeFile path expected tree = (tree.retire path found, .ok ()) := by
  have found : tree.isFile path = true := by simp [isFile, same]
  refine ⟨found, ?_⟩
  unfold removeFile
  simp only [read_eq_ok.mpr same, expectedError_eq_none.mpr same, dif_pos found]

theorem appendable_iff :
    tree.appendable path = true ↔
      tree.creatable path = true ∧ (tree.file path).any Prod.snd = false := by
  simp [appendable]

theorem appendFile_cases (tree : FileTree) (path : Path) (bytes : Content) :
    (∃ ready, tree.appendable path = true ∧ appendFile path bytes tree =
      (tree.install path ((tree.content path).getD [] ++ bytes) false ready, .ok ())) ∨
      tree.appendable path = false ∧
      ∃ failure, appendFile path bytes tree = (tree, .error failure) := by
  by_cases ready : tree.creatable path = true
  · obtain ⟨named, above, -⟩ := creatable_iff.mp ready
    unfold appendFile
    rw [if_neg named, behindFile_eq_false.mpr above, if_neg (by simp), dif_pos ready]
    split_ifs with shared
    · exact Or.inr ⟨by simp [appendable, shared], _, rfl⟩
    · exact Or.inl ⟨ready, by simp [appendable, ready, shared], rfl⟩
  · right
    refine ⟨by simp [appendable, ready], ?_⟩
    unfold appendFile
    rw [dif_neg ready]
    split_ifs
    · exact ⟨_, rfl⟩
    · exact ⟨_, rfl⟩
    · exact ⟨_, rfl⟩

end FileTree

end ForgeCore
