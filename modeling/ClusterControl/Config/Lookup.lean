import ClusterControl.Config.Source

/-!
# Where the configuration lies

The configuration is the first that exists of a path from the environment, two files in the working
directory, the same two in its directory `.cloudplane`, and one file in the configuration directory
of the user. Without any of them all settings have their defaults. A working directory that is gone
ends the search at the path from the environment.
-/

namespace ClusterControl

inductive FileEntry where
  | directory
  | file (content : ByteArray)

/-- The entries of a file system by the names on the way from the root. -/
abbrev FileTree := List String → Option FileEntry

namespace Path

/-- The parts of a path between its slashes. -/
def split : List Char → List (List Char)
  | [] => [[]]
  | c :: cs =>
    match split cs with
    | [] => [[c]]
    | part :: rest => if c = '/' then [] :: part :: rest else (c :: part) :: rest

def components (path : String) : List String := (split path.toList).map String.ofList

def isAbsolute (path : String) : Bool := path.toList.head? == some '/'

def join (directory name : String) : String :=
  if directory.isEmpty || directory.toList.getLast? == some '/' then directory ++ name
  else directory ++ "/" ++ name

end Path

structure AbsolutePath where
  text : String
  isAbsolute : Path.isAbsolute text = true

namespace AbsolutePath

def ofText? (text : String) : Option AbsolutePath :=
  if h : Path.isAbsolute text = true then some ⟨text, h⟩ else none

end AbsolutePath

/-- What the lookup knows beside the files. Without an absolute `xdgConfigHome` the configuration
directory of the user lies in their home. Relative paths start at `place`, of which the system may
not know the path, as when the working directory was removed. -/
structure Environment where
  configPath : Option String := none
  xdgConfigHome : Option String := none
  home : Option String
  workingDirectory : Option AbsolutePath
  place : List String

namespace FileTree

/-- The way on from a place along the parts of a path; every part needs a directory before it. -/
def walk (t : FileTree) : List String → List String → Option (List String)
  | place, [] => some place
  | place, part :: rest =>
    match t place with
    | some .directory =>
      if part = "" ∨ part = "." then walk t place rest
      else if part = ".." then walk t place.dropLast rest
      else walk t (place ++ [part]) rest
    | _ => none

/-- The bytes of the longest path that is followed. -/
def longestPath : Nat := 4095

/-- What a path leads to. An empty or too long path leads nowhere. -/
def lookup? (t : FileTree) (env : Environment) (path : String) : Option FileEntry := do
  let start := if Path.isAbsolute path then [] else env.place
  if path.isEmpty || longestPath < path.utf8ByteSize then none
  else t (← t.walk start (Path.components path))

def isDirectory (t : FileTree) (env : Environment) (path : String) : Bool :=
  match t.lookup? env path with
  | some .directory => true
  | _ => false

/-- The first of a list of paths where something lies. -/
def first? (t : FileTree) (env : Environment) (paths : List String) : Option String :=
  paths.find? fun path => (t.lookup? env path).isSome

def read (t : FileTree) (env : Environment) (path : String) : Except ConfigError String :=
  match t.lookup? env path with
  | some (.file content) =>
    match String.fromUTF8? content with
    | some text => .ok text
    | none => .error (.io "not a text")
  | some .directory => .error (.io "a directory")
  | none => .error (.io "no such file")

end FileTree

namespace Environment

def configDirectory (env : Environment) : Except ConfigError String :=
  match env.xdgConfigHome.filter Path.isAbsolute, env.home with
  | some xdg, _ => .ok (Path.join xdg "cloudplane")
  | none, some home => .ok (Path.join (Path.join home ".config") "cloudplane")
  | none, none => .error .directoryNotFound

def filesIn (directory : String) : List String :=
  [Path.join directory "cloudplane.local.yaml", Path.join directory "cloudplane.yaml"]

/-- The paths that may hold the configuration in a working directory or else for the user, by
priority. -/
def candidates (env : Environment) (t : FileTree) (directory : AbsolutePath) : List String :=
  let directories :=
    [directory.text, Path.join directory.text ".cloudplane"].filter (t.isDirectory env)
  let global := match env.configDirectory with
    | .ok directory => [Path.join directory "cloudplane.yaml"]
    | .error _ => []
  directories.flatMap filesIn ++ global

/-- The given path if something lies there, and otherwise the first candidate that exists. -/
def findConfig (env : Environment) (t : FileTree) : Except ConfigError String :=
  match t.first? env env.configPath.toList with
  | some path => .ok path
  | none =>
    match env.workingDirectory with
    | none => .error (.io "no working directory")
    | some directory =>
      match t.first? env (env.candidates t directory) with
      | some path => .ok path
      | none => .error .fileNotFound

end Environment

namespace Settings

def loadFrom (env : Environment) (t : FileTree) (path : String) : Except ConfigError Settings :=
  match t.read env path with
  | .ok source => ofYaml source path
  | .error e => .error e

def load (env : Environment) (t : FileTree) : Except ConfigError Settings :=
  match env.findConfig t with
  | .ok path => loadFrom env t path
  | .error .fileNotFound => .ok {}
  | .error e => .error e

end Settings

end ClusterControl
