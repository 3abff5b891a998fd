import FeatureTransform.Script.Header

/-!
# Scripts that belong to the program

Two sample scripts, one of them with a help text. They can be listed, shown and run like any script
in a folder.
-/

namespace FeatureTransform.Script

/-- A script of the program: its file name, its text and its help, if it has one. -/
structure Builtin where
  /-- the file name -/
  name : String
  /-- the text of the script -/
  text : String
  /-- the text of its help file -/
  help? : Option String

/-- Drops features by the value of one attribute. -/
def filterByPopulation : Builtin where
  name := "filter_by_population.lua"
  text := "--#Filter by population=name
--#Sample scripts=group
--#field_name=field
--#minimum=number 1000;0
-- Drops every feature whose population attribute is below the minimum.
-- Pass `--field kept:boolean` to keep the marker in the output.
function func(feature)
  local value = feature.properties[field_name or \"population\"]
  if value == nil or value < (minimum or 1000) then
    return nil
  end
  feature.properties.kept = true
  return feature
end
"
  help? := none

/-- Sets one attribute of every feature. -/
def renameRoads : Builtin where
  name := "rename_roads.lua"
  text := "--#Rename roads=name
--#Sample scripts=group
--#new_road_name=string
function func(feature)
  -- the global 'feedback' table reports messages back to the host
  feedback.push_info(feature.properties.ROAD_NAME)
  -- feature is the decoded GeoJSON feature; return a feature, an array of
  -- features or a FeatureCollection. Parameter values are globals.
  feature.properties.ROAD_NAME = new_road_name
  return feature
end
"
  help? := some "\x7b
  \"ALG_DESC\": \"Replaces the ROAD_NAME attribute of every feature with a fixed value.\",
  \"ALG_CREATOR\": \"luaproc\",
  \"new_road_name\": \"Name written into the ROAD_NAME attribute.\"
\x7d
"

/-- The scripts of the program, sorted by name. -/
def builtins : List Builtin := [filterByPopulation, renameRoads]

/-- The script of the program with that file name; the help file counts as one of its files. -/
def builtin? (name : String) : Option Builtin := builtins.find? (·.name = name)

/-- The text of the embedded file of that name: a script or the help of one. -/
def embeddedText? (name : String) : Option String :=
  match builtin? name with
  | some file => some file.text
  | none => (builtins.find? fun file => file.name ++ ".help" = name).bind Builtin.help?

/-- The script read from an embedded file. -/
def ofBuiltin? (name : String) : Option Script :=
  (embeddedText? name).map fun text => ofNamed name text (.builtin name)

end FeatureTransform.Script
