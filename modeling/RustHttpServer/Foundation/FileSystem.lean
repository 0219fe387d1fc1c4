import RustHttpServer.Foundation.Search
import RustHttpServer.Foundation.Utf8

/-!
# Paths and file systems

Paths as they are written, and the files that they lead to in a tree of files,
directories and symbolic links. `resolve` follows a path; it ends at a file or a
directory whose own path has no links (`resolve_canonical`), and that path leads to
itself (`canonicalize_canonicalize`).
-/

namespace Foundation

/-- What stands between two separators of a path, or the name of a file. -/
abbrev Name := Bytes

/-- A path, cut at its separators: `/a/b` is `["", "a", "b"]`. -/
abbrev Path := List Name

namespace Path

/-- The path written as some bytes. -/
def ofBytes (bytes : Bytes) : Path := split bytes [47] (by decide)

/-- The empty segment and the dot lead nowhere else. -/
def isTrivial (segment : Name) : Bool := segment = [] ∨ segment = [46]

/-- The two dots, which lead to the parent directory. -/
def parentName : Name := [46, 46]

/-- The path starts at the root. -/
def hasRoot : Path → Bool
  | [] :: _ :: _ => true
  | _ => false

/-- A part of a path that is neither a separator nor redundant. -/
inductive Component
  | rootDir
  | curDir
  | parentDir
  | normal (name : Name)
  deriving DecidableEq

/-- The component that a segment stands for. -/
def component? (segment : Name) : Option Component :=
  if isTrivial segment then none
  else if segment = parentName then some .parentDir
  else some (.normal segment)

/-- The components of a path. A dot counts only where it starts the path. -/
def components (path : Path) : List Component :=
  (if hasRoot path then [.rootDir] else if path.head? = some [46] then [.curDir] else []) ++
    path.filterMap component?

/-- The components of the path begin with those of another. -/
def startsWith (path base : Path) : Bool := (components base).isPrefixOf (components path)

/-- A path behind another, unless it starts at the root itself. -/
def join (base path : Path) : Path :=
  if hasRoot path then path
  else if base.getLast? = some [] then base.dropLast ++ path
  else base ++ path

/-- What is left of a path that starts at the root without the root, from its first to
its last component. -/
def stripRoot (path : Path) : Path :=
  match ((path.tail.dropWhile isTrivial).reverse.dropWhile isTrivial).reverse with
  | [] => [[]]
  | segments => segments

/-- The last component, if it is a name. -/
def fileName (path : Path) : Option Name :=
  match (components path).getLast? with
  | some (.normal name) => some name
  | _ => none

/-- The file name from its last dot on, unless that is its first character. -/
def extension (path : Path) : Option Name :=
  (fileName path).bind fun name =>
    match splitOnce name.reverse [46] with
    | none => none
    | some (_, []) => none
    | some (after, _ :: _) => some after.reverse

/-- The path from the root along some names. -/
def absolute : List Name → Path
  | [] => [[], []]
  | names => [] :: names

end Path

/-- What stands at a place of a file system. -/
inductive Node (File : Type)
  | file (file : File)
  | directory
  | symlink (target : Path)

namespace Node

variable {File : Type}

/-- What stands at a place, whatever is in a file. -/
def shape : Node File → Node Unit
  | .file _ => .file ()
  | .directory => .directory
  | .symlink target => .symlink target

/-- Nodes of the same shape are the same, or files both. -/
private theorem eq_or_files_of_shape {node node' : Node File} (same : node'.shape = node.shape) :
    node' = node ∨ ∃ old new, node = .file old ∧ node' = .file new := by
  cases node with
  | file old =>
      cases node' with
      | file new => exact .inr ⟨old, new, rfl, rfl⟩
      | directory => cases same
      | symlink target => cases same
  | directory =>
      cases node' with
      | file new => cases same
      | directory => exact .inl rfl
      | symlink target => cases same
  | symlink target =>
      cases node' with
      | file new => cases same
      | directory => cases same
      | symlink target' =>
          cases same
          exact .inl rfl

end Node

/-- Why a path leads nowhere. -/
inductive ResolveError
  | notFound
  | notDirectory
  | tooManyLinks
  deriving DecidableEq, Repr

namespace FileSystem

open Foundation.Path

variable {File : Type}

/-- The places of the directories: the root, and the directories in directories. -/
inductive IsDirectory (node : List Name → Option (Node File)) : List Name → Prop
  | root : IsDirectory node []
  | child {directory : List Name} {name : Name} : IsDirectory node directory →
      isTrivial name = false → name ≠ parentName →
      node (directory ++ [name]) = some .directory → IsDirectory node (directory ++ [name])

/-- The places that paths lead to: directories, and files in them. -/
inductive IsCanonical (node : List Name → Option (Node File)) : List Name → Prop
  | directory {names : List Name} : IsDirectory node names → IsCanonical node names
  | file {directory : List Name} {name : Name} {file : File} : IsDirectory node directory →
      isTrivial name = false → name ≠ parentName →
      node (directory ++ [name]) = some (.file file) → IsCanonical node (directory ++ [name])

end FileSystem

/-- What stands at every place of a file system, a place being the names that lead to it
from the root, and the directory from which relative paths start. -/
structure FileSystem (File : Type) where
  node : List Name → Option (Node File)
  workingDirectory : List Name
  isDirectory : FileSystem.IsDirectory node workingDirectory

namespace FileSystem

open Foundation.Path

variable {File : Type} {node : List Name → Option (Node File)}

private theorem IsDirectory.parent {names : List Name} (directory : IsDirectory node names) :
    IsDirectory node names.dropLast := by
  cases directory with
  | root => exact .root
  | child inner _ _ _ =>
      rw [List.dropLast_concat]
      exact inner

/-- Follows a path from a directory up to the first symbolic link, and goes on from
there with `follow`. -/
def walkFrom (node : List Name → Option (Node File))
    (follow : List Name → Path → Except ResolveError (List Name)) :
    List Name → Path → Except ResolveError (List Name)
  | directory, [] => .ok directory
  | directory, segment :: rest =>
      if isTrivial segment then walkFrom node follow directory rest
      else if segment = parentName then walkFrom node follow directory.dropLast rest
      else
        match node (directory ++ [segment]) with
        | none => .error .notFound
        | some .directory => walkFrom node follow (directory ++ [segment]) rest
        | some (.file _) => if rest = [] then .ok (directory ++ [segment]) else .error .notDirectory
        | some (.symlink target) =>
            follow (if hasRoot target then [] else directory) (target ++ rest)

/-- Follows a path with a number of symbolic links in it at most. -/
def walk (node : List Name → Option (Node File)) :
    Nat → List Name → Path → Except ResolveError (List Name)
  | 0 => walkFrom node fun _ _ => .error .tooManyLinks
  | links + 1 => walkFrom node (walk node links)

/-- Walking leads to canonical places if following links does. -/
private theorem isCanonical_of_walkFrom
    {follow : List Name → Path → Except ResolveError (List Name)}
    (followed : ∀ {directory path names}, follow directory path = .ok names →
      IsDirectory node directory → IsCanonical node names)
    {directory : List Name} {path : Path} {names : List Name}
    (walked : walkFrom node follow directory path = .ok names)
    (inside : IsDirectory node directory) : IsCanonical node names := by
  induction path generalizing directory with
  | nil =>
      cases walked
      exact .directory inside
  | cons segment rest ih =>
      unfold walkFrom at walked
      split at walked
      · exact ih walked inside
      · next proper =>
          rw [Bool.not_eq_true] at proper
          split at walked
          · exact ih walked inside.parent
          · next notParent =>
              split at walked
              · cases walked
              · next found => exact ih walked (.child inside proper notParent found)
              · next found =>
                  split at walked
                  · cases walked
                    exact .file inside proper notParent found
                  · cases walked
              · apply followed walked
                split
                · exact .root
                · exact inside

/-- Every path that leads somewhere leads to a directory, or to a file in one. -/
theorem isCanonical_of_walk {links : Nat} {directory : List Name} {path : Path}
    {names : List Name} (walked : walk node links directory path = .ok names)
    (inside : IsDirectory node directory) : IsCanonical node names := by
  induction links generalizing directory path names with
  | zero =>
      refine isCanonical_of_walkFrom ?_ walked inside
      intro _ _ _ followed
      cases followed
  | succ links ih => exact isCanonical_of_walkFrom ih walked inside

private theorem walkFrom_proper {follow : List Name → Path → Except ResolveError (List Name)}
    {directory : List Name} {segment : Name} {rest : Path} (proper : isTrivial segment = false)
    (notParent : segment ≠ parentName) :
    walkFrom node follow directory (segment :: rest) =
      match node (directory ++ [segment]) with
      | none => .error .notFound
      | some .directory => walkFrom node follow (directory ++ [segment]) rest
      | some (.file _) => if rest = [] then .ok (directory ++ [segment]) else .error .notDirectory
      | some (.symlink target) =>
          follow (if hasRoot target then [] else directory) (target ++ rest) := by
  rw [walkFrom, proper, if_neg Bool.false_ne_true, if_neg notParent]

/-- The path along the place of a directory leads to it. -/
theorem walkFrom_isDirectory {follow : List Name → Path → Except ResolveError (List Name)}
    {names : List Name} (directory : IsDirectory node names) (rest : Path) :
    walkFrom node follow [] (names ++ rest) = walkFrom node follow names rest := by
  induction directory generalizing rest with
  | root => rfl
  | child inner proper notParent found ih =>
      rw [List.append_assoc, ih, List.singleton_append, walkFrom_proper proper notParent, found]

private theorem walkFrom_isCanonical {follow : List Name → Path → Except ResolveError (List Name)}
    {names : List Name} (canonical : IsCanonical node names) :
    walkFrom node follow [] names = .ok names := by
  cases canonical with
  | directory directory =>
      have walked : walkFrom node follow [] (names ++ []) = walkFrom node follow names [] :=
        walkFrom_isDirectory directory []
      rw [List.append_nil] at walked
      rw [walked, walkFrom]
  | file directory proper notParent found =>
      rw [walkFrom_isDirectory directory, walkFrom_proper proper notParent, found]
      exact if_pos rfl

private theorem walk_isCanonical {names : List Name} (canonical : IsCanonical node names)
    (links : Nat) :
    walk node links [] names = .ok names := by
  cases links <;> exact walkFrom_isCanonical canonical

/-- The most symbolic links that are followed on the way along one path. -/
def linkLimit : Nat := 40

variable (fs : FileSystem File)

/-- The place that a path leads to. -/
def resolve (path : Path) : Except ResolveError (List Name) :=
  if path = [[]] then .error .notFound
  else walk fs.node linkLimit (if hasRoot path then [] else fs.workingDirectory) path

/-- The path without symbolic links from the root to where a path leads. -/
def canonicalize (path : Path) : Except ResolveError Path := (fs.resolve path).map absolute

/-- What a path leads to. -/
inductive Target (File : Type)
  | file (file : File)
  | directory

/-- The file or directory that a path leads to. -/
def find (path : Path) : Except ResolveError (Target File) :=
  (fs.resolve path).map fun names =>
    match fs.node names with
    | some (.file file) => .file file
    | _ => .directory

variable {fs}

/-- What a path leads to is a canonical place, free of links. -/
theorem resolve_canonical {path : Path} {names : List Name}
    (resolved : fs.resolve path = .ok names) : IsCanonical fs.node names := by
  unfold resolve at resolved
  split at resolved
  · cases resolved
  · apply isCanonical_of_walk resolved
    split
    · exact .root
    · exact fs.isDirectory

/-- A path without symbolic links leads to the place it names. -/
theorem resolve_absolute {names : List Name} (canonical : IsCanonical fs.node names) :
    fs.resolve (absolute names) = .ok names := by
  have walked := walk_isCanonical canonical linkLimit
  cases names with
  | nil => rfl
  | cons name names =>
      rw [resolve, if_neg (by simp [absolute])]
      change walkFrom fs.node _ [] ([] :: name :: names) = _
      rw [walkFrom, if_pos (by decide)]
      exact walked

/-- The canonical path of a file leads to the file. -/
theorem resolve_canonicalize {path canonical : Path}
    (found : fs.canonicalize path = .ok canonical) : fs.resolve canonical = fs.resolve path := by
  cases resolved : fs.resolve path with
  | error error =>
      rw [canonicalize, resolved] at found
      cases found
  | ok names =>
      rw [canonicalize, resolved] at found
      cases found
      exact resolve_absolute (resolve_canonical resolved)

/-- The canonical path of a file is its own canonical path. -/
theorem canonicalize_canonicalize {path canonical : Path}
    (found : fs.canonicalize path = .ok canonical) :
    fs.canonicalize canonical = .ok canonical := by
  rw [canonicalize, resolve_canonicalize found]
  exact found

/-! ### Writing -/

/-- What stands at every place once the file at one place is another one, or gone. -/
def writeNode (node : List Name → Option (Node File)) (place : List Name)
    (file : Option File) : List Name → Option (Node File) := fun names =>
  match node names with
  | some (.file old) => if names = place then file.map .file else some (.file old)
  | other => other

section Writing

variable {place : List Name} {file : Option File}

/-- A write changes only the file at its place. -/
theorem writeNode_eq (names : List Name) : writeNode node place file names = node names ∨
    names = place ∧ ∃ old, node names = some (.file old) ∧
      writeNode node place file names = file.map .file := by
  unfold writeNode
  cases found : node names with
  | none => exact .inl rfl
  | some there =>
      cases there with
      | directory => exact .inl rfl
      | symlink target => exact .inl rfl
      | file old =>
          by_cases here : names = place
          · exact .inr ⟨here, old, rfl, if_pos here⟩
          · exact .inl (if_neg here)

/-- Writing a file leaves the directories where they are. -/
theorem IsDirectory.writeNode {names : List Name} (directory : IsDirectory node names) :
    IsDirectory (writeNode node place file) names := by
  induction directory with
  | root => exact .root
  | child _ proper notParent found ih =>
      refine .child ih proper notParent ?_
      rw [FileSystem.writeNode, found]

/-- A path leads where it has led before another file stood on its way, or nowhere. -/
theorem walkFrom_writeNode
    {follow follow' : List Name → Path → Except ResolveError (List Name)}
    (followed : ∀ directory path, follow' directory path = follow directory path ∨
      ∃ error, follow' directory path = .error error) (directory : List Name) (path : Path) :
    walkFrom (writeNode node place file) follow' directory path =
        walkFrom node follow directory path ∨
      ∃ error, walkFrom (writeNode node place file) follow' directory path = .error error := by
  induction path generalizing directory with
  | nil => exact .inl rfl
  | cons segment rest ih =>
      rw [walkFrom, walkFrom]
      split
      · exact ih directory
      · split
        · exact ih directory.dropLast
        · rcases @writeNode_eq _ node place file (directory ++ [segment]) with
            same | ⟨_, old, before, after⟩
          · rw [same]
            cases node (directory ++ [segment]) with
            | none => exact .inl rfl
            | some found =>
                cases found with
                | directory => exact ih (directory ++ [segment])
                | symlink target => exact followed _ (target ++ rest)
                | file old => exact .inl rfl
          · rw [before, after]
            cases file with
            | none => exact .inr ⟨.notFound, rfl⟩
            | some new => exact .inl rfl

private theorem walk_writeNode (links : Nat) (directory : List Name) (path : Path) :
    walk (writeNode node place file) links directory path = walk node links directory path ∨
      ∃ error, walk (writeNode node place file) links directory path = .error error := by
  induction links generalizing directory path with
  | zero => exact walkFrom_writeNode (fun _ _ => .inl rfl) directory path
  | succ links ih => exact walkFrom_writeNode ih directory path

variable (fs)

/-- The file system once the file of a name in a directory is another one, or gone. -/
def write (directory : List Name) (name : Name) (file : Option File) : FileSystem File where
  node := writeNode fs.node (directory ++ [name]) file
  workingDirectory := fs.workingDirectory
  isDirectory := fs.isDirectory.writeNode

private theorem resolve_write (directory : List Name) (name : Name) (path : Path) :
    (fs.write directory name file).resolve path = fs.resolve path ∨
      ∃ error, (fs.write directory name file).resolve path = .error error := by
  rw [resolve, resolve]
  split
  · exact .inl rfl
  · exact walk_writeNode linkLimit _ path

/-- No path leads to a place where nothing is. -/
theorem not_isCanonical_of_none {directory : List Name} {name : Name}
    (absent : node (directory ++ [name]) = none) : ¬IsCanonical node (directory ++ [name]) := by
  intro canonical
  generalize names : directory ++ [name] = place at absent canonical
  cases canonical with
  | directory inside =>
      cases inside with
      | root => exact List.append_ne_nil_of_right_ne_nil _ (List.cons_ne_nil _ _) names
      | child _ _ _ found => cases absent.symm.trans found
  | file _ _ _ found => cases absent.symm.trans found

/-- The file at the place that a path leads to is found. -/
theorem find_of_resolve {fs : FileSystem File} {path : Path} {names : List Name} {file : File}
    (resolved : fs.resolve path = .ok names) (there : fs.node names = some (.file file)) :
    fs.find path = .ok (.file file) := by
  rw [find, resolved, Except.map, there]

private theorem find_congr {fs fs' : FileSystem File} {path : Path} {names : List Name}
    (resolved : fs.resolve path = .ok names) (resolved' : fs'.resolve path = .ok names)
    (same : fs.node names = fs'.node names) : fs.find path = fs'.find path := by
  rw [find, find, resolved, resolved', Except.map, Except.map, same]

/-- A write changes what a path leads to only if that is the file that is written. -/
theorem find_write (directory : List Name) (name : Name) (file : Option File) (path : Path) :
    (fs.write directory name file).find path = fs.find path ∨
    (∃ error, (fs.write directory name file).find path = .error error) ∨
    ∃ old new, fs.node (directory ++ [name]) = some (.file old) ∧ file = some new ∧
      fs.resolve path = .ok (directory ++ [name]) ∧
      (fs.write directory name file).find path = .ok (.file new) := by
  cases resolved : (fs.write directory name file).resolve path with
  | error error =>
      right; left
      exact ⟨error, by rw [find, resolved]; rfl⟩
  | ok names =>
      have before : fs.resolve path = .ok names := by
        rcases fs.resolve_write directory name path with same | ⟨error, failed⟩
        · rw [← same, resolved]
        · cases resolved.symm.trans failed
      have canonical := resolve_canonical resolved
      rcases @writeNode_eq _ fs.node (directory ++ [name]) file names with
        same | ⟨rfl, old, there, after⟩
      · exact .inl (find_congr resolved before same)
      · cases file with
        | none => exact absurd (resolve_canonical resolved) (not_isCanonical_of_none after)
        | some new =>
            right; right
            exact ⟨old, new, there, rfl, before, find_of_resolve resolved after⟩

end Writing

/-! ### What does not depend on the files -/

section Shape

/-- What stands at each place, whatever is in the files. -/
def shape (node : List Name → Option (Node File)) (names : List Name) : Option (Node Unit) :=
  (node names).map Node.shape

/-- Where a path leads does not depend on what is in the files. -/
theorem walkFrom_shape (follow : List Name → Path → Except ResolveError (List Name))
    (directory : List Name) (path : Path) :
    walkFrom (shape node) follow directory path = walkFrom node follow directory path := by
  induction path generalizing directory with
  | nil => rfl
  | cons segment rest ih =>
      rw [walkFrom, walkFrom, ih directory, ih directory.dropLast, ih (directory ++ [segment]),
        shape]
      cases node (directory ++ [segment]) with
      | none => rfl
      | some found =>
          cases found with
          | file file => rfl
          | directory => rfl
          | symlink target => rfl

private theorem walk_shape (links : Nat) (directory : List Name) (path : Path) :
    walk (shape node) links directory path = walk node links directory path := by
  induction links generalizing directory path with
  | zero => exact walkFrom_shape _ directory path
  | succ links ih =>
      rw [walk, walk, walkFrom_shape, funext fun directory => funext (ih directory)]

/-- Two file systems that differ at most in files, and not in those at some places. -/
structure AgreesIn (fs fs' : FileSystem File) (places : Set (List Name)) : Prop where
  shape : shape fs'.node = shape fs.node
  workingDirectory : fs'.workingDirectory = fs.workingDirectory
  files : ∀ names ∈ places, fs'.node names = fs.node names

variable {fs fs' : FileSystem File} {places : Set (List Name)}

/-- File systems that agree have the same shape, so paths lead to the same places. -/
theorem AgreesIn.resolve (agrees : fs.AgreesIn fs' places) (path : Path) :
    fs'.resolve path = fs.resolve path := by
  have walked : ∀ directory, walk fs'.node linkLimit directory path =
      walk fs.node linkLimit directory path := fun directory => by
    rw [← walk_shape, agrees.shape, walk_shape]
  rw [FileSystem.resolve, FileSystem.resolve, walked, agrees.workingDirectory]

/-- In file systems that agree, paths have the same canonical paths. -/
theorem AgreesIn.canonicalize (agrees : fs.AgreesIn fs' places) (path : Path) :
    fs'.canonicalize path = fs.canonicalize path := by
  rw [FileSystem.canonicalize, FileSystem.canonicalize, agrees.resolve]

/-- A path leads to the same file, or to the same directory, if it leads to one of the places. -/
theorem AgreesIn.find (agrees : fs.AgreesIn fs' places) {path : Path} {names : List Name}
    (resolved : fs.resolve path = .ok names) (inside : names ∈ places) :
    fs'.find path = fs.find path :=
  find_congr ((agrees.resolve path).trans resolved) resolved (agrees.files names inside)

/-- Elsewhere it leads to some file, or to the same directory. -/
theorem AgreesIn.find_cases (agrees : fs.AgreesIn fs' places) (path : Path) :
    fs'.find path = fs.find path ∨ ∃ old new, fs.find path = .ok (.file old) ∧
      fs'.find path = .ok (.file new) := by
  rw [FileSystem.find, FileSystem.find, agrees.resolve]
  cases fs.resolve path with
  | error error => exact .inl rfl
  | ok names =>
      have same := congrFun agrees.shape names
      dsimp only [FileSystem.shape, Except.map] at same ⊢
      cases before : fs.node names with
      | none =>
          rw [before, Option.map_none, Option.map_eq_none_iff] at same
          rw [same]
          exact .inl rfl
      | some found =>
          rw [before, Option.map_some, Option.map_eq_some_iff] at same
          obtain ⟨there, after, alike⟩ := same
          rw [after]
          rcases Node.eq_or_files_of_shape alike with rfl | ⟨old, new, rfl, rfl⟩
          · exact .inl rfl
          · exact .inr ⟨old, new, rfl, rfl⟩

/-- The file system with another file at a place, if there is one. -/
def rewrite (fs : FileSystem File) (place : List Name) (file : File) : FileSystem File where
  node := writeNode fs.node place (some file)
  workingDirectory := fs.workingDirectory
  isDirectory := fs.isDirectory.writeNode

/-- A file that is rewritten outside some places makes no difference in them. -/
theorem agreesIn_rewrite {place : List Name} (outside : place ∉ places) (file : File) :
    fs.AgreesIn (fs.rewrite place file) places where
  shape := by
    funext names
    dsimp only [FileSystem.shape, rewrite]
    rcases @writeNode_eq _ fs.node place (some file) names with same | ⟨-, old, before, after⟩
    · rw [same]
    · rw [before, after]
      rfl
  workingDirectory := rfl
  files names inside := by
    rcases @writeNode_eq _ fs.node place (some file) names with same | ⟨here, -⟩
    · exact same
    · exact absurd (here ▸ inside) outside

end Shape

end FileSystem

/-! ### Children -/

namespace Path

private theorem absolute_concat (names : List Name) (name : Name) :
    absolute (names ++ [name]) = ([] :: names) ++ [name] := by
  cases names with
  | nil => rfl
  | cons first names => rfl

/-- A name behind the path along some names, the last of which is proper. -/
theorem join_absolute {names : List Name} (last : ∀ name ∈ names.getLast?, isTrivial name = false)
    {name : Name} (proper : isTrivial name = false) :
    join (absolute names) [name] = absolute (names ++ [name]) := by
  have relative : hasRoot [name] = false := by
    cases name with
    | nil => cases proper
    | cons byte bytes => rfl
  rw [join, relative, if_neg Bool.false_ne_true]
  rcases List.eq_nil_or_concat names with rfl | ⟨names, own, rfl⟩
  · rfl
  · rw [List.concat_eq_append] at last ⊢
    rw [absolute_concat names own, List.getLast?_concat, if_neg]
    · rw [absolute_concat]
      rfl
    · rintro ⟨⟩
      cases last [] List.getLast?_concat

private theorem components_absolute (names : List Name) :
    components (absolute names) = .rootDir :: names.filterMap component? := by
  cases names with
  | nil => rfl
  | cons name names => rfl

/-- What is below a place is below whatever the place is below. -/
theorem startsWith_absolute_append {names : List Name} {base : Path}
    (below : startsWith (absolute names) base = true) (more : List Name) :
    startsWith (absolute (names ++ more)) base = true := by
  rw [startsWith, List.isPrefixOf_iff_prefix] at below ⊢
  refine below.trans ?_
  rw [components_absolute, components_absolute, List.filterMap_append]
  exact List.prefix_append _ _

end Path

namespace FileSystem

open Foundation.Path

variable {File : Type} {fs : FileSystem File}

/-- The last name of a canonical place is a proper name. -/
theorem proper_of_isCanonical {node : List Name → Option (Node File)} {names : List Name}
    (canonical : IsCanonical node names) : ∀ name ∈ names.getLast?, isTrivial name = false := by
  intro name last
  cases canonical with
  | directory directory =>
      cases directory with
      | root => cases last
      | child _ proper _ _ =>
          rw [List.getLast?_concat] at last
          cases last
          exact proper
  | file _ proper _ _ =>
      rw [List.getLast?_concat] at last
      cases last
      exact proper

private theorem exists_resolve_absolute {names : List Name} (some : names ≠ []) :
    ∃ follow, fs.resolve (absolute names) = walkFrom fs.node follow [] names := by
  obtain ⟨first, rest, rfl⟩ := List.exists_cons_of_ne_nil some
  refine ⟨walk fs.node 39, ?_⟩
  rw [resolve, if_neg (by simp [absolute])]
  change walkFrom fs.node _ [] ([] :: first :: rest) = _
  rw [walkFrom, if_pos (by decide)]

/-- A path along the names to a place and one more leads there, unless there is a symbolic link. -/
theorem eq_of_resolve_child {names found : List Name} {name : Name}
    (canonical : IsCanonical fs.node names) (proper : isTrivial name = false)
    (notParent : name ≠ parentName)
    (plain : ∀ target, fs.node (names ++ [name]) ≠ some (.symlink target))
    (resolved : fs.resolve (absolute (names ++ [name])) = .ok found) : found = names ++ [name] := by
  obtain ⟨follow, same⟩ := fs.exists_resolve_absolute (List.concat_ne_nil name names)
  have walked : walkFrom fs.node follow [] (names ++ [name]) = .ok found :=
    same.symm.trans resolved
  cases canonical with
  | directory directory =>
      rw [walkFrom_isDirectory directory, walkFrom_proper proper notParent] at walked
      cases there : fs.node (names ++ [name]) with
      | none =>
          rw [there] at walked
          cases walked
      | some node =>
          rw [there] at walked
          cases node with
          | directory =>
              cases walked
              rfl
          | file file =>
              cases walked
              rfl
          | symlink target => exact absurd there (plain target)
  | file directory own ownName there =>
      rw [List.append_assoc, walkFrom_isDirectory directory, List.singleton_append,
        walkFrom_proper own ownName, there] at walked
      cases walked

end FileSystem

end Foundation
