import FeatureTransform.Text.Blank
import FeatureTransform.Decimal.Layout

/-!
# Declarations

A script declares typed parameters, which the host binds before the script runs, and outputs, which
the script computes. Each declaration is one line `name=type` of the script's header. A type names
a kind and may constrain it: a default value, a range, a list of choices.
-/

namespace FeatureTransform

/-! ## Kinds -/

/-- Which geometries a vector layer may hold. -/
inductive Geometry where
  /-- all of them -/
  | any
  /-- points only -/
  | point
  /-- lines only -/
  | line
  /-- polygons only -/
  | polygon
deriving DecidableEq, Repr

/-- The word for a geometry restriction. -/
def Geometry.label : Geometry → String
  | .any => "any"
  | .point => "point"
  | .line => "line"
  | .polygon => "polygon"

/-- What a parameter for several layers holds. -/
inductive LayerType where
  /-- feature layers -/
  | vector
  /-- images -/
  | raster
deriving DecidableEq, Repr

/-- The word for a type of layers. -/
def LayerType.label : LayerType → String
  | .vector => "vector"
  | .raster => "raster"

/-- The kind of a parameter with its constraints. -/
inductive Kind where
  /-- an image layer -/
  | raster
  /-- a feature layer -/
  | vector (geometry : Geometry)
  /-- a rectangle on the map -/
  | extent
  /-- a reference system -/
  | crs (default? : Option String)
  /-- an attribute name of the layer that another parameter names -/
  | field (parent? : Option String)
  /-- a text -/
  | string (default? : Option String)
  /-- an existing file -/
  | file (extension? : Option String)
  /-- a double with an optional range -/
  | number (default? min? max? : Option Float)
  /-- one of some texts -/
  | choice (choices : List String)
  /-- a truth value -/
  | boolean (default : Bool)
  /-- several layers of one type -/
  | layers (type : LayerType)
  /-- where an image is written -/
  | rasterDestination
  /-- where features are written -/
  | vectorDestination
  /-- where a file is written -/
  | fileDestination (extension? : Option String)
deriving DecidableEq

/-- How the value of a parameter enters the program text. -/
inductive BindingStyle where
  /-- as a string literal -/
  | text
  /-- as a number literal -/
  | number
  /-- not at all: the host acts on it -/
  | passThrough
deriving DecidableEq, Repr

namespace Kind

/-- The words that name the kind in a header. -/
def keyword : Kind → String
  | .raster => "raster"
  | .vector _ => "vector"
  | .extent => "extent"
  | .crs _ => "crs"
  | .field _ => "field"
  | .string _ => "string"
  | .file _ => "file"
  | .number _ _ _ => "number"
  | .choice _ => "enum"
  | .boolean _ => "boolean"
  | .layers _ => "multiple"
  | .rasterDestination => "output raster"
  | .vectorDestination => "output vector"
  | .fileDestination _ => "output file"

/-- Whether a parameter of the kind says where something is written. -/
def isDestination : Kind → Bool
  | .rasterDestination | .vectorDestination | .fileDestination _ => true
  | _ => false

/-- How a parameter of the kind is bound. -/
def bindingStyle : Kind → BindingStyle
  | .field _ | .string _ | .file _ => .text
  | .number _ _ _ => .number
  | _ => .passThrough

end Kind

/-! ## Declarations -/

/-- A declared parameter. -/
structure Parameter where
  /-- the global variable that holds its value -/
  name : String
  /-- its label for people -/
  description : String
  /-- whether it may be left without a value -/
  optional : Bool
  /-- kind and constraints -/
  kind : Kind
deriving DecidableEq

/-- The kind of a declared output. -/
inductive OutputKind where
  /-- a number -/
  | number
  /-- a text -/
  | string
  /-- a page of markup -/
  | html
deriving DecidableEq, Repr

/-- The word for a kind of output. -/
def OutputKind.label : OutputKind → String
  | .number => "number"
  | .string => "string"
  | .html => "html"

/-- A declared output. -/
structure Output where
  /-- its name -/
  name : String
  /-- its label for people -/
  description : String
  /-- what it holds -/
  kind : OutputKind
deriving DecidableEq

/-- What one header line declares. -/
inductive Declaration where
  /-- a parameter -/
  | parameter (p : Parameter)
  /-- an output -/
  | output (o : Output)
deriving DecidableEq

/-- The declared name. -/
def Declaration.name : Declaration → String
  | .parameter p => p.name
  | .output o => o.name

/-- The label of a name: its underscores become blanks. -/
def labelOf (name : Text) : String :=
  String.ofList (name.map fun c => if c = '_' then ' ' else c)

/-! ## Errors -/

/-- Why a constraint does not fit its kind. -/
inductive ConstraintError where
  /-- no geometry is called so -/
  | unknownGeometry (text : String)
  /-- a number takes a default, a minimum and a maximum at most -/
  | tooManyParts
  /-- a part that should be a number is none -/
  | notANumber (text : String)
  /-- the minimum lies above the maximum -/
  | emptyRange (min max : Float)
  /-- an empty list of choices -/
  | noChoice
  /-- a default that is no truth value -/
  | notABoolean (text : String)
  /-- no type of layers is called so -/
  | unknownLayerType (text : String)
deriving DecidableEq

/-- The sentence that describes the error. -/
def ConstraintError.message : ConstraintError → String
  | .unknownGeometry text => s!"unknown geometry type '{text}'"
  | .tooManyParts => "expected at most default;min;max"
  | .notANumber text => s!"'{text}' is not a number"
  | .emptyRange min max =>
    s!"minimum {Decimal.plainText min} exceeds maximum {Decimal.plainText max}"
  | .noChoice => "at least one choice is required"
  | .notABoolean text => s!"'{text}' is not true or false"
  | .unknownLayerType text => s!"unknown layer type '{text}'"

/-- Why a header line declares nothing. -/
inductive DeclarationError where
  /-- no `=` in the line -/
  | missingSeparator
  /-- nothing before the `=` -/
  | emptyName
  /-- the type is neither of a parameter nor of an output -/
  | unknownType (keyword : String)
  /-- the constraint does not fit the kind -/
  | invalidConstraint (keyword : String) (cause : ConstraintError)
  /-- the name belongs to the host -/
  | reservedName (name : String)
deriving DecidableEq

/-- The sentence that describes the error. -/
def DeclarationError.message : DeclarationError → String
  | .missingSeparator => "missing '=' separator"
  | .emptyName => "declaration has no name"
  | .unknownType keyword => s!"unknown declaration type '{keyword}'"
  | .invalidConstraint keyword cause => s!"invalid {keyword} constraint: {cause.message}"
  | .reservedName name => s!"'{name}' is reserved by the script runtime"

end FeatureTransform
