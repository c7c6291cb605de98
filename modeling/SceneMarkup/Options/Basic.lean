import SceneMarkup.Json.Value

namespace SceneMarkup

/-!
# Conversion settings

One record is passed through every stage of a conversion.
-/

/-- Conversion settings; a fresh record keeps two decimal places and switches nothing on. -/
structure Options where
  /-- Decimal places kept in every written number. -/
  precision : UInt32 := 2
  /-- Write the name of every element. -/
  keepNames : Bool := false
  /-- Never prune groups. -/
  keepGroups : Bool := false
  /-- Let every mesh cast and receive shadows. -/
  shadows : Bool := false
  /-- Write user data. -/
  includeData : Bool := false
  /-- Write type annotations. -/
  types : Bool := false
  /-- A second argument for the asset hook, usually the path of a decoder. -/
  draco : Option Json.Value := none
  /-- Draw pairs of geometry and material that are used more than once as instances. -/
  instanceShared : Bool := false
  /-- Draw every pair of geometry and material as an instance. -/
  instanceAll : Bool := false
  /-- Allow the pruning rules that move transforms. -/
  aggressive : Bool := false
  /-- Report the scene before conversion. -/
  debug : Bool := false
  /-- Text for the leading comment. -/
  header : Option String := none
  /-- Size report for the leading comment. -/
  size : Option String := none
  /-- The directory that assets are served from; the asset's own directory when absent. -/
  root : Option String := none
  /-- Merge equal geometries and materials before conversion. -/
  deduplicate : Bool := false
  /-- A command that the finished text is piped through. -/
  formatter : Option String := none
  deriving Repr, Inhabited

/-- The file name extension of a component, with or without type annotations. -/
def Options.extension (types : Bool) : String :=
  if types then "tsx" else "jsx"

/-- Whether any pair of geometry and material may be drawn as an instance. -/
def Options.instancing (options : Options) : Bool :=
  options.instanceShared || options.instanceAll

end SceneMarkup
