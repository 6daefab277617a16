import ClusterControl.Config.Lookup
import Mathlib.Tactic.SplitIfs

/-!
# The configuration that is found

The places of a configuration are a list of paths that the files have no part in. What is loaded is
read from the first place where something lies, and without any it is the defaults, or an error if
there is no working directory. So two file systems with the same first place and the same file in it
give the same settings, whatever lies in the places after it.
-/

namespace ClusterControl

namespace Path

variable {directory name : String}

theorem split_ne_nil (cs : List Char) : split cs ≠ [] := by
  cases cs with
  | nil => simp [split]
  | cons c cs =>
    unfold split
    cases split cs with
    | nil => simp
    | cons part rest => by_cases hc : c = '/' <;> simp [hc]

/-- A slash ends the parts before it. -/
theorem split_append (front last : List Char) :
    split (front ++ '/' :: last) = split front ++ split last := by
  induction front with
  | nil =>
    obtain ⟨part, rest, hlast⟩ := List.exists_cons_of_ne_nil (split_ne_nil last)
    simp [split, hlast]
  | cons c front ih =>
    obtain ⟨part, rest, hfront⟩ := List.exists_cons_of_ne_nil (split_ne_nil front)
    rw [List.cons_append, split, split, ih, hfront, List.cons_append]
    by_cases hc : c = '/' <;> simp [hc]

theorem components_ne_nil (path : String) : components path ≠ [] := by
  simpa [components] using split_ne_nil path.toList

/-- The parts of a path inside a directory are those of the way to the directory and its own. An
empty part at the end of the way leads on to the same place. -/
theorem components_join (name : String) (hdirectory : directory ≠ "") :
    ∃ way, components (join directory name) = way ++ components name ∧
      (components directory = way ∨ components directory = way ++ [""]) := by
  unfold join
  split
  next h =>
    have hslash : directory.toList.getLast? = some '/' := by
      simpa [String.isEmpty_iff, hdirectory] using h
    obtain ⟨front, hfront⟩ := List.getLast?_eq_some_iff.mp hslash
    refine ⟨(split front).map String.ofList, ?_, .inr ?_⟩
    · simp [components, hfront, split_append]
    · simp [components, hfront, split_append, split]
  next => exact ⟨components directory, by simp [components, split_append], .inl rfl⟩

theorem isAbsolute_join (hdirectory : directory ≠ "") :
    isAbsolute (join directory name) = isAbsolute directory := by
  have hne : directory.toList ≠ [] := by simpa using hdirectory
  obtain ⟨c, cs, hcs⟩ := List.exists_cons_of_ne_nil hne
  unfold isAbsolute join
  split <;> simp [hcs]

theorem utf8ByteSize_le_join : directory.utf8ByteSize ≤ (join directory name).utf8ByteSize := by
  unfold join
  split
  · rw [String.utf8ByteSize_append]
    exact Nat.le_add_right ..
  · rw [String.utf8ByteSize_append, String.utf8ByteSize_append, Nat.add_assoc]
    exact Nat.le_add_right ..

theorem join_ne_empty (hdirectory : directory ≠ "") : join directory name ≠ "" := by
  unfold join
  split <;> simp [hdirectory]

end Path

theorem AbsolutePath.text_ne_empty (d : AbsolutePath) : d.text ≠ "" := by
  obtain ⟨text, habsolute⟩ := d
  rintro rfl
  simp [Path.isAbsolute] at habsolute

namespace FileTree

variable {t : FileTree} {env : Environment} {path directory name : String} {e : FileEntry}
  {place : List String}

/-- Something lies where a path leads. -/
def Exists (t : FileTree) (env : Environment) (path : String) : Prop :=
  (t.lookup? env path).isSome = true

instance (t : FileTree) (env : Environment) (path : String) : Decidable (t.Exists env path) :=
  inferInstanceAs (Decidable (_ = true))

def start (env : Environment) (path : String) : List String :=
  if Path.isAbsolute path then [] else env.place

theorem walk_append (front last : List String) :
    t.walk place (front ++ last) = (t.walk place front).bind fun p => t.walk p last := by
  induction front generalizing place with
  | nil => rfl
  | cons part rest ih =>
    simp only [List.cons_append, walk, ih]
    cases t place with
    | none => rfl
    | some e =>
      cases e with
      | file content => rfl
      | directory => split_ifs <;> rfl

/-- Only a directory leads on. -/
theorem directory_of_walk {way : List String} (hway : way ≠ [])
    (h : (t.walk place way).isSome = true) : t place = some .directory := by
  cases way with
  | nil => exact absurd rfl hway
  | cons part rest =>
    unfold walk at h
    split at h
    next hplace => exact hplace
    next => cases h

theorem lookup?_eq_some : t.lookup? env path = some e ↔
    path ≠ "" ∧ path.utf8ByteSize ≤ longestPath ∧
      ∃ p, t.walk (start env path) (Path.components path) = some p ∧ t p = some e := by
  unfold lookup?
  by_cases hpath : path.isEmpty = true
  · simp [String.isEmpty_iff.mp hpath]
  · by_cases hsize : longestPath < path.utf8ByteSize
    · simp [hsize, Nat.not_le.mpr hsize]
    · have hne : path ≠ "" := fun h => hpath (String.isEmpty_iff.mpr h)
      simp [hpath, hne, hsize, Nat.not_lt.mp hsize, start, Option.bind_eq_some_iff]

/-- What lies inside a directory lies in a directory. -/
theorem isDirectory_of_join (hdirectory : directory ≠ "")
    (h : t.Exists env (Path.join directory name)) : t.isDirectory env directory = true := by
  obtain ⟨e, he⟩ := Option.isSome_iff_exists.mp h
  obtain ⟨_, hsize, q, hwalk, _⟩ := lookup?_eq_some.mp he
  have hstart : start env (Path.join directory name) = start env directory := by
    simp only [start, Path.isAbsolute_join hdirectory]
  obtain ⟨way, hjoin, hway⟩ := Path.components_join name hdirectory
  rw [hjoin, walk_append, hstart] at hwalk
  obtain ⟨p, hp, hname⟩ := Option.bind_eq_some_iff.mp hwalk
  have hplace : t p = some .directory :=
    directory_of_walk (Path.components_ne_nil name) (by rw [hname]; rfl)
  have hdirect : t.walk (start env directory) (Path.components directory) = some p := by
    rcases hway with hway | hway
    · rw [hway, hp]
    · simp [hway, walk_append, hp, walk, hplace]
  have hlookup : t.lookup? env directory = some .directory :=
    lookup?_eq_some.mpr
      ⟨hdirectory, Nat.le_trans Path.utf8ByteSize_le_join hsize, p, hdirect, hplace⟩
  simp [isDirectory, hlookup]

end FileTree

namespace Environment

variable {env : Environment} {t t' : FileTree} {path directory : String} {paths : List String}
  {d : AbsolutePath}

def dotDirectory (d : AbsolutePath) : String := Path.join d.text ".cloudplane"

/-- The paths that may hold the configuration beside a given one, whatever the files are: two in the
working directory, two in its own directory there, and one in the configuration directory of the
user. -/
def searched (env : Environment) (d : AbsolutePath) : List String :=
  filesIn d.text ++ filesIn (dotDirectory d) ++
    (env.configDirectory.toOption.map fun user => Path.join user "cloudplane.yaml").toList

/-- The paths that may hold the configuration, by priority. -/
def places (env : Environment) : List String :=
  env.configPath.toList ++ env.workingDirectory.toList.flatMap env.searched

/-- A path is the first of the places where something lies. -/
def Wins (env : Environment) (t : FileTree) (path : String) : Prop :=
  ∃ before after, env.places = before ++ path :: after ∧ t.Exists env path ∧
    ∀ p ∈ before, ¬ t.Exists env p

/-- Two file systems agree on which of the paths lead anywhere, up to the first that does, and on
what lies there. -/
inductive Agree (env : Environment) (t t' : FileTree) : List String → Prop
  | nothing : Agree env t t' []
  | winner {path : String} {rest : List String} (existing : t.Exists env path)
      (content : t'.lookup? env path = t.lookup? env path) : Agree env t t' (path :: rest)
  | missing {path : String} {rest : List String} (left : ¬ t.Exists env path)
      (right : ¬ t'.Exists env path) (later : Agree env t t' rest) : Agree env t t' (path :: rest)

theorem exists_filesIn (hdirectory : directory ≠ "") (hpath : path ∈ filesIn directory)
    (h : t.Exists env path) : t.isDirectory env directory = true := by
  simp only [filesIn, List.mem_cons, List.not_mem_nil, or_false] at hpath
  rcases hpath with rfl | rfl <;> exact FileTree.isDirectory_of_join hdirectory h

/-- Directories that are passed over hold nothing. -/
theorem first?_filesIn (env : Environment) (t : FileTree) (hdirectory : directory ≠ "") :
    t.first? env (([directory].filter (t.isDirectory env)).flatMap filesIn) =
      t.first? env (filesIn directory) := by
  by_cases hd : t.isDirectory env directory = true
  · simp [hd]
  · have hnone : t.first? env (filesIn directory) = none :=
      List.find?_eq_none.mpr fun p hp hexists => hd (exists_filesIn hdirectory hp hexists)
    rw [List.filter_cons_of_neg hd, hnone]
    rfl

/-- The candidates have the same first path as the list that does not know the files. -/
theorem first?_candidates (env : Environment) (t : FileTree) (d : AbsolutePath) :
    t.first? env (env.candidates t d) = t.first? env (env.searched d) := by
  have hsplit : [d.text, Path.join d.text ".cloudplane"].filter (t.isDirectory env) =
      [d.text].filter (t.isDirectory env) ++ [dotDirectory d].filter (t.isDirectory env) :=
    List.filter_append [_] [_]
  have hdotted : dotDirectory d ≠ "" := Path.join_ne_empty d.text_ne_empty
  have hlocal := first?_filesIn env t d.text_ne_empty
  have hdot := first?_filesIn env t hdotted
  unfold FileTree.first? at *
  unfold candidates searched
  simp only [hsplit, List.flatMap_append, List.find?_append, hlocal, hdot]
  cases env.configDirectory <;> rfl

theorem first?_places : t.first? env env.places = some path ↔ env.Wins t path := by
  unfold FileTree.first? Wins FileTree.Exists
  rw [List.find?_eq_some_iff_append]
  constructor
  · rintro ⟨hpath, before, after, hsplit, hbefore⟩
    exact ⟨before, after, hsplit, hpath, fun p hp => by simpa using hbefore p hp⟩
  · rintro ⟨before, after, hsplit, hpath, hbefore⟩
    exact ⟨hpath, before, after, hsplit, fun p hp => by simpa using hbefore p hp⟩

theorem first?_places_eq_none :
    t.first? env env.places = none ↔ ∀ path ∈ env.places, ¬ t.Exists env path :=
  List.find?_eq_none

/-- The lookup finds the first place where something lies. -/
theorem findConfig_eq (env : Environment) (t : FileTree) :
    env.findConfig t = match t.first? env env.places with
      | some path => .ok path
      | none =>
        if env.workingDirectory.isSome then .error .fileNotFound
        else .error (.io "no working directory") := by
  have happend (a b : List String) : t.first? env (a ++ b) = (t.first? env a).or (t.first? env b) :=
    List.find?_append
  unfold findConfig places
  rw [happend]
  cases t.first? env env.configPath.toList with
  | some path => rfl
  | none =>
    cases env.workingDirectory with
    | none => rfl
    | some d =>
      simp only [first?_candidates, Option.none_or, Option.toList_some, List.flatMap_singleton]
      cases t.first? env (env.searched d) <;> rfl

theorem findConfig_eq_ok : env.findConfig t = .ok path ↔ env.Wins t path := by
  rw [← first?_places, findConfig_eq]
  cases t.first? env env.places <;> cases env.workingDirectory <;> simp

theorem findConfig_of_nothing (nothing : ∀ path ∈ env.places, ¬ t.Exists env path) :
    env.findConfig t = if env.workingDirectory.isSome then .error .fileNotFound
      else .error (.io "no working directory") := by
  rw [findConfig_eq, first?_places_eq_none.mpr nothing]

theorem findConfig_eq_fileNotFound : env.findConfig t = .error .fileNotFound ↔
    env.workingDirectory.isSome = true ∧ ∀ path ∈ env.places, ¬ t.Exists env path := by
  rw [← first?_places_eq_none, findConfig_eq]
  cases t.first? env env.places <;> cases env.workingDirectory <;> simp

/-- File systems that agree have the same first path, or none, and the same thing lies there. -/
theorem Agree.first?_eq (h : Agree env t t' paths) :
    t'.first? env paths = t.first? env paths ∧
      ∀ path, t.first? env paths = some path → t'.lookup? env path = t.lookup? env path := by
  induction h with
  | nothing => exact ⟨rfl, fun path h => by cases h⟩
  | @winner path rest existing content =>
    have hleft : t.first? env (path :: rest) = some path := List.find?_cons_of_pos existing
    have hright : t'.first? env (path :: rest) = some path :=
      List.find?_cons_of_pos (by rw [content]; exact existing)
    rw [hleft, hright]
    exact ⟨rfl, fun p hp => Option.some.inj hp ▸ content⟩
  | @missing path rest left right _ ih =>
    have hleft : t.first? env (path :: rest) = t.first? env rest := List.find?_cons_of_neg left
    have hright : t'.first? env (path :: rest) = t'.first? env rest := List.find?_cons_of_neg right
    rw [hleft, hright]
    exact ih

end Environment

namespace Settings

variable {env : Environment} {t t' : FileTree} {path : String}

theorem load_of_wins (wins : env.Wins t path) : load env t = loadFrom env t path := by
  simp only [load, Environment.findConfig_eq_ok.mpr wins]

theorem load_of_nothing (nothing : ∀ path ∈ env.places, ¬ t.Exists env path) :
    load env t = if env.workingDirectory.isSome then .ok {}
      else .error (.io "no working directory") := by
  unfold load
  rw [Environment.findConfig_of_nothing nothing]
  cases env.workingDirectory <;> rfl

/-- What is loaded from a path depends on what lies there alone. -/
theorem loadFrom_congr (h : t'.lookup? env path = t.lookup? env path) :
    loadFrom env t' path = loadFrom env t path := by
  simp only [loadFrom, FileTree.read, h]

theorem load_of_agree (agree : env.Agree t t' env.places) : load env t' = load env t := by
  obtain ⟨hfirst, hcontent⟩ := agree.first?_eq
  cases h : t.first? env env.places with
  | none =>
    rw [load_of_nothing (Environment.first?_places_eq_none.mp h),
      load_of_nothing (Environment.first?_places_eq_none.mp (hfirst.trans h))]
  | some path =>
    rw [load_of_wins (Environment.first?_places.mp h),
      load_of_wins (Environment.first?_places.mp (hfirst.trans h)),
      loadFrom_congr (hcontent path h)]

def misled : Environment where
  configPath := some "/etc/none.yaml"
  home := some "/home"
  workingDirectory := some ⟨"/work", by decide⟩
  place := ["work"]

/-- A file system with a broken local configuration, and some content in the file after it. -/
def withLocal (content : String) : FileTree
  | [] | ["work"] => some .directory
  | ["work", "cloudplane.local.yaml"] => some (.file "polling: [1, 2]".toUTF8)
  | ["work", "cloudplane.yaml"] => some (.file content.toUTF8)
  | _ => none

end Settings

end ClusterControl
