import ClusterControl.Config.Lookup

/-!
# Scripted file systems

A file system from a list of files and directories. The directories on the way to an entry are made
with it, and a later entry replaces an earlier one.
-/

namespace ClusterControl.Scenario

structure FileSpec where
  path : List String
  entry : FileEntry

/-- The file system with the given entries, the latest last. -/
def fileTree (specs : List FileSpec) : FileTree := fun place =>
  match specs.reverse.find? (·.path == place) with
  | some spec => some spec.entry
  | none => if place.isEmpty || specs.any (place.isPrefixOf ·.path) then some .directory else none

end ClusterControl.Scenario
