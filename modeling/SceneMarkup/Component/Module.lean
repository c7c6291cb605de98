import SceneMarkup.Component.Header
import SceneMarkup.Component.ResultType
import SceneMarkup.Markup.Attribute

namespace SceneMarkup.Component

open Scene Markup

/-!
# Component modules

A module is a leading comment, imports, types if asked for, a wrapper that
defines the instances if there are any, and the component around the markup.
-/

/-- A module before it is written. -/
structure Source where
  labels : Labels
  /-- The path of the asset as the component loads it. -/
  fileName : String
  /-- Markup of the scene, indented for its place in the component. -/
  body : String

/-- An address on another host is kept, a local path starts at the served root. -/
def assetAddress (fileName : String) : String :=
  if (fileName.toList.map Char.toLower).take 4 == ['h', 't', 't', 'p'] then fileName
  else "/" ++ fileName

/-- Whether `part` occurs in `text`. -/
def occursIn (part : List Char) : List Char → Bool
  | [] => part.isEmpty
  | character :: rest => part.isPrefixOf (character :: rest) || occursIn part rest

namespace Source

/-- The settings of the conversion. -/
def options (source : Source) : Options :=
  source.labels.options

/-- Whether the module must define instances. -/
def hasInstances (source : Source) : Bool :=
  source.options.instancing && !source.labels.index.isEmpty

/-- The asset's address as a literal. -/
def address (source : Source) : String :=
  Text.quoted (assetAddress source.fileName)

/-- The call of the asset hook, with the decoder argument if there is one. -/
def load (source : Source) : String :=
  match source.options.draco with
  | some argument => "useGLTF(" ++ source.address ++ ", " ++ argument.compact ++ ")"
  | none => "useGLTF(" ++ source.address ++ ")"

/-- The call of the asset hook, with its type if the module is typed. -/
def typedLoad (source : Source) : String :=
  source.load ++ (if source.options.types then " as GLTFResult" else "")

/-- The classes of cameras that the markup mentions. -/
def cameras (source : Source) : List String :=
  ["PerspectiveCamera", "OrthographicCamera"].filter fun camera =>
    occursIn camera.toList source.body.toList

/-- What the module takes from the component library. -/
def libraryNames (source : Source) : List String :=
  ["useGLTF"] ++ (if source.hasInstances then ["Merged"] else []) ++ source.cameras
    ++ (if source.labels.animated then ["useAnimations"] else [])

/-- The import lines, and the types of a typed module. -/
def imports (source : Source) : String :=
  (if source.options.types then "import * as THREE from 'three'\n" else "")
    ++ (if source.hasInstances then "import React, \x7b useRef, useMemo \x7d from 'react'\n"
      else "import React, \x7b useRef \x7d from 'react'\n")
    ++ "import \x7b " ++ ", ".intercalate source.libraryNames ++ " \x7d from '@react-three/drei'\n"
    ++ (if source.options.types then
      "import \x7b GLTF \x7d from 'three-stdlib'\n\n" ++ resultType source.labels
      else "")

/-- The type of a component's properties. -/
def propertiesType : String := "JSX.IntrinsicElements['group']"

/-- The lines that map instance names to nodes. -/
def instanceEntries (source : Source) : String :=
  String.join (source.labels.index.pairs.map fun pair =>
    "      " ++ pair.name ++ ": " ++ pair.node ++ ",\n")

/-- The component that defines the instances and draws the model with them. -/
def instancedModel (source : Source) : String :=
  let properties := if source.options.types then "props: " ++ propertiesType else "props"
  "\nexport default function InstancedModel(" ++ properties ++ ") \x7b\n"
    ++ "  const " ++ braced " nodes " ++ " = " ++ source.typedLoad ++ "\n"
    ++ "  const instances = useMemo(\n"
    ++ "    () => (\x7b\n" ++ source.instanceEntries ++ "    \x7d),\n"
    ++ "    [nodes]\n"
    ++ "  )\n"
    ++ "  return (\n"
    ++ "    <Merged meshes=" ++ braced "instances" ++ " " ++ braced "...props" ++ ">\n"
    ++ "      " ++ braced ("(instances) => <Model instances=" ++ braced "instances" ++ " />")
    ++ "\n"
    ++ "    </Merged>\n"
    ++ "  )\n"
    ++ "\x7d\n"

/-- The parameters of the component. -/
def parameters (source : Source) : String :=
  match source.hasInstances, source.options.types with
  | true, true => braced " instances, ...props " ++ ": " ++ braced " instances: any " ++ " & "
      ++ propertiesType
  | true, false => braced " instances, ...props "
  | false, true => "props: " ++ propertiesType
  | false, false => "props"

/-- The line that binds the actions of an animated asset. -/
def actions (source : Source) : String :=
  if source.labels.animated then
    "\n  const " ++ braced " actions " ++ " = useAnimations"
      ++ (if source.options.types then "<GLTFActions>" else "") ++ "(animations, group)"
  else ""

/-- The component around the markup, and the call that loads the asset ahead of time. -/
def model (source : Source) : String :=
  let reference := if source.options.types then "useRef<THREE.Group>()" else "useRef()"
  let tables :=
    if source.labels.animated then " nodes, materials, animations " else " nodes, materials "
  "\n" ++ (if source.hasInstances then "" else "export default ")
    ++ "function Model(" ++ source.parameters ++ ") \x7b\n"
    ++ "  const group = " ++ reference ++ "\n"
    ++ "  const " ++ braced tables ++ " = " ++ source.typedLoad ++ source.actions ++ "\n"
    ++ "  return (\n"
    ++ "    <group ref=" ++ braced "group" ++ " " ++ braced "...props"
    ++ " dispose=" ++ braced "null" ++ ">\n"
    ++ source.body ++ "    </group>\n"
    ++ "  )\n"
    ++ "\x7d\n"
    ++ "\nuseGLTF.preload(" ++ source.address ++ ")\n"

/-- The text of the module. -/
def text (source : Source) : String :=
  headerComment source.options source.labels.graph.extras ++ "\n" ++ source.imports
    ++ (if source.hasInstances then source.instancedModel else "") ++ source.model

end Source

end SceneMarkup.Component
