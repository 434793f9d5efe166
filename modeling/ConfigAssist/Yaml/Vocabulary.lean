import ConfigAssist.Color.Category

/-!
The words with a meaning of their own: top-level domains, control keys, and the tags that escape to
something outside the file.
-/

namespace ConfigAssist.Yaml

def domainKeys : List Text :=
  ["automation", "script", "sensor", "binary_sensor", "template", "input_boolean", "input_number",
    "input_select", "input_text", "input_datetime", "light", "switch", "climate", "cover", "scene",
    "group", "zone", "person"].map String.toList

def controlKeys : List Text :=
  ["trigger", "triggers", "condition", "conditions", "action", "actions", "service", "entity_id",
    "platform", "device_id", "area_id"].map String.toList

def escapeTags : List (Text × Marker) :=
  [("!include".toList, .includes), ("!include_dir_list".toList, .includes),
    ("!include_dir_named".toList, .includes), ("!include_dir_merge_list".toList, .includes),
    ("!include_dir_merge_named".toList, .includes), ("!secret".toList, .secret),
    ("!env_var".toList, .envVar), ("!input".toList, .input)]

/-- The marker of an escape tag; other tags have none. -/
def tagMarker (tag : Text) : Option Marker := escapeTags.lookup tag

/-- The marker of a key. A domain counts only where it is the first thing on its line. -/
def keyMarker (first : Bool) (name : Text) : Option Marker :=
  if first && domainKeys.contains name then some .domain
  else if controlKeys.contains name then some .control
  else none

end ConfigAssist.Yaml
