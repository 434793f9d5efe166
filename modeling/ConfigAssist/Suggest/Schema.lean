import ConfigAssist.Suggest.Item
import ConfigAssist.Suggest.Snippet

/-!
Schemas: the pools of candidates, the snippets, and the sentinel that introduces a snippet.
-/

namespace ConfigAssist

inductive Pool where
  | domains
  | automationKeys
  | automationModes
  | triggers
  | conditions
  | services
  | actionKeys
  | commonKeys
  | escapeTags
  | sensorPlatforms
deriving DecidableEq

namespace Pool

/-- All pools, in the order of a table. -/
def all : List Pool :=
  [domains, automationKeys, automationModes, triggers, conditions, services, actionKeys, commonKeys,
    escapeTags, sensorPlatforms]

def name : Pool → String
  | domains => "domains"
  | automationKeys => "automation_keys"
  | automationModes => "automation_modes"
  | triggers => "triggers"
  | conditions => "conditions"
  | services => "services"
  | actionKeys => "action_keys"
  | commonKeys => "common_keys"
  | escapeTags => "escape_tags"
  | sensorPlatforms => "sensor_platforms"

def kind : Pool → Kind
  | domains => .domain
  | automationKeys | actionKeys | commonKeys => .key
  | automationModes => .value
  | triggers => .trigger
  | conditions => .condition
  | services => .service
  | escapeTags => .tag
  | sensorPlatforms => .platform

theorem mem_all (p : Pool) : p ∈ all := by cases p <;> decide

end Pool

/-- A candidate of a pool. -/
structure Entry where
  text : Text
  kind : Kind
  description : Option Text := none
deriving DecidableEq

def Entry.suggestion (e : Entry) : Suggestion where
  insert := e.text
  kind := e.kind
  description := e.description

structure Schema where
  pool : Pool → List Entry
  snippets : List Snippet
  sentinel : Text

end ConfigAssist
