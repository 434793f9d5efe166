import ConfigAssist.Suggest.Table

/-!
The built-in schema: the core surface of a home automation configuration.
-/

namespace ConfigAssist.Builtin

def row (text description : String) : Table.Row where
  text := text.toList
  description := some description.toList

def snippetRow (name label description : String) (body : List String) : Table.SnippetRow where
  name := name.toList
  label := some label.toList
  body := ['\n'].intercalate (body.map String.toList)
  description := some description.toList

def domains : List Table.Row :=
  [
    row "homeassistant:" "Core Home Assistant configuration",
    row "automation:" "Automation configuration",
    row "script:" "Script configuration",
    row "scene:" "Scene configuration",
    row "sensor:" "Sensor configuration",
    row "binary_sensor:" "Binary sensor configuration",
    row "template:" "Template entities",
    row "input_boolean:" "Input boolean helper",
    row "input_number:" "Input number helper",
    row "input_text:" "Input text helper",
    row "input_select:" "Input select helper",
    row "input_datetime:" "Input datetime helper",
    row "input_button:" "Input button helper",
    row "counter:" "Counter helper",
    row "timer:" "Timer helper",
    row "group:" "Group configuration",
    row "person:" "Person configuration",
    row "zone:" "Zone configuration",
    row "light:" "Light configuration",
    row "switch:" "Switch configuration",
    row "cover:" "Cover configuration",
    row "climate:" "Climate configuration",
    row "fan:" "Fan configuration",
    row "lock:" "Lock configuration",
    row "camera:" "Camera configuration",
    row "media_player:" "Media player configuration",
    row "notify:" "Notification configuration",
    row "tts:" "Text-to-speech configuration",
    row "mqtt:" "MQTT configuration",
    row "http:" "HTTP configuration",
    row "logger:" "Logger configuration",
    row "recorder:" "Recorder configuration",
    row "history:" "History configuration",
    row "logbook:" "Logbook configuration",
    row "frontend:" "Frontend configuration",
    row "config:" "Configuration UI",
    row "api:" "API configuration",
    row "websocket_api:" "WebSocket API",
    row "mobile_app:" "Mobile app integration",
    row "shopping_list:" "Shopping list",
    row "conversation:" "Conversation integration",
    row "default_config:" "Default configuration",
    row "system_health:" "System health monitoring"]

def automationKeys : List Table.Row :=
  [
    row "alias:" "Automation friendly name",
    row "description:" "Automation description",
    row "id:" "Unique automation ID",
    row "mode:" "Automation execution mode",
    row "max:" "Maximum concurrent runs",
    row "max_exceeded:" "Behavior when max exceeded",
    row "trigger:" "Automation triggers",
    row "condition:" "Automation conditions",
    row "action:" "Automation actions"]

def automationModes : List Table.Row :=
  [
    row "single" "Only one run at a time",
    row "restart" "Restart automation on new trigger",
    row "queued" "Queue runs",
    row "parallel" "Run in parallel"]

def triggers : List Table.Row :=
  [
    row "platform: state" "State change trigger",
    row "platform: numeric_state" "Numeric state trigger",
    row "platform: event" "Event trigger",
    row "platform: time" "Time trigger",
    row "platform: time_pattern" "Time pattern trigger",
    row "platform: mqtt" "MQTT trigger",
    row "platform: webhook" "Webhook trigger",
    row "platform: zone" "Zone trigger",
    row "platform: geo_location" "Geo location trigger",
    row "platform: homeassistant" "Home Assistant event trigger",
    row "platform: sun" "Sun event trigger",
    row "platform: tag" "NFC tag trigger",
    row "platform: template" "Template trigger",
    row "platform: calendar" "Calendar trigger",
    row "platform: conversation" "Conversation trigger"]

def conditions : List Table.Row :=
  [
    row "condition: state" "State condition",
    row "condition: numeric_state" "Numeric state condition",
    row "condition: template" "Template condition",
    row "condition: time" "Time condition",
    row "condition: zone" "Zone condition",
    row "condition: sun" "Sun condition",
    row "condition: and" "AND condition",
    row "condition: or" "OR condition",
    row "condition: not" "NOT condition",
    row "condition: device" "Device condition"]

def services : List Table.Row :=
  [
    row "service: homeassistant.turn_on" "Turn on entity",
    row "service: homeassistant.turn_off" "Turn off entity",
    row "service: homeassistant.toggle" "Toggle entity",
    row "service: homeassistant.reload_config_entry" "Reload config entry",
    row "service: homeassistant.restart" "Restart Home Assistant",
    row "service: homeassistant.stop" "Stop Home Assistant",
    row "service: homeassistant.update_entity" "Update entity",
    row "service: light.turn_on" "Turn on light",
    row "service: light.turn_off" "Turn off light",
    row "service: light.toggle" "Toggle light",
    row "service: switch.turn_on" "Turn on switch",
    row "service: switch.turn_off" "Turn off switch",
    row "service: switch.toggle" "Toggle switch",
    row "service: cover.open_cover" "Open cover",
    row "service: cover.close_cover" "Close cover",
    row "service: cover.stop_cover" "Stop cover",
    row "service: climate.set_temperature" "Set climate temperature",
    row "service: climate.set_hvac_mode" "Set HVAC mode",
    row "service: notify.notify" "Send notification",
    row "service: script.turn_on" "Run script",
    row "service: automation.turn_on" "Enable automation",
    row "service: automation.turn_off" "Disable automation",
    row "service: automation.trigger" "Trigger automation",
    row "service: automation.reload" "Reload automations",
    row "service: scene.turn_on" "Activate scene",
    row "service: input_boolean.turn_on" "Turn on input boolean",
    row "service: input_boolean.turn_off" "Turn off input boolean",
    row "service: input_boolean.toggle" "Toggle input boolean",
    row "service: input_number.set_value" "Set input number value",
    row "service: input_text.set_value" "Set input text value",
    row "service: input_select.select_option" "Select input option",
    row "service: input_datetime.set_datetime" "Set datetime",
    row "service: input_button.press" "Press input button",
    row "service: counter.increment" "Increment counter",
    row "service: counter.decrement" "Decrement counter",
    row "service: counter.reset" "Reset counter",
    row "service: timer.start" "Start timer",
    row "service: timer.pause" "Pause timer",
    row "service: timer.cancel" "Cancel timer",
    row "service: persistent_notification.create" "Create notification",
    row "service: persistent_notification.dismiss" "Dismiss notification",
    row "service: tts.speak" "Speak text",
    row "service: media_player.media_play" "Play media",
    row "service: media_player.media_pause" "Pause media",
    row "service: media_player.media_stop" "Stop media",
    row "service: media_player.volume_up" "Increase volume",
    row "service: media_player.volume_down" "Decrease volume",
    row "service: media_player.volume_set" "Set volume"]

def actionKeys : List Table.Row :=
  [
    row "entity_id:" "Target entity ID",
    row "device_id:" "Target device ID",
    row "area_id:" "Target area ID",
    row "data:" "Service data",
    row "target:" "Service target",
    row "delay:" "Delay action",
    row "wait_template:" "Wait for template",
    row "wait_for_trigger:" "Wait for trigger",
    row "choose:" "Choose action based on condition",
    row "repeat:" "Repeat action",
    row "if:" "Conditional action",
    row "then:" "If condition is true",
    row "else:" "If condition is false",
    row "parallel:" "Run actions in parallel",
    row "sequence:" "Sequence of actions"]

def commonKeys : List Table.Row :=
  [
    row "name:" "Entity name",
    row "unique_id:" "Unique entity ID",
    row "icon:" "Entity icon (mdi:icon-name)",
    row "device_class:" "Device class",
    row "unit_of_measurement:" "Unit of measurement",
    row "state:" "Entity state",
    row "state_topic:" "MQTT state topic",
    row "command_topic:" "MQTT command topic",
    row "availability_topic:" "MQTT availability topic",
    row "payload_on:" "Payload for ON state",
    row "payload_off:" "Payload for OFF state",
    row "payload_available:" "Payload for available",
    row "payload_not_available:" "Payload for not available",
    row "value_template:" "Template for value",
    row "availability_template:" "Template for availability",
    row "attributes:" "Entity attributes",
    row "friendly_name:" "Friendly entity name"]

def escapeTags : List Table.Row :=
  [
    row "!include " "Include another YAML file",
    row "!include_dir_list " "Include directory as list",
    row "!include_dir_named " "Include directory as named entries",
    row "!include_dir_merge_list " "Include and merge directory as list",
    row "!include_dir_merge_named " "Include and merge directory as named",
    row "!secret " "Reference secret from secrets.yaml",
    row "!env_var " "Use environment variable",
    row "!input " "Blueprint input"]

def sensorPlatforms : List Table.Row :=
  [
    row "platform: template" "Template sensor",
    row "platform: mqtt" "MQTT sensor",
    row "platform: statistics" "Statistics sensor",
    row "platform: time_date" "Time and date sensor",
    row "platform: rest" "REST sensor",
    row "platform: command_line" "Command line sensor",
    row "platform: sql" "SQL sensor",
    row "platform: file" "File sensor",
    row "platform: folder" "Folder sensor",
    row "platform: history_stats" "History statistics sensor",
    row "platform: trend" "Trend sensor",
    row "platform: min_max" "Min/Max sensor",
    row "platform: filter" "Filter sensor"]

def snippets : List Table.SnippetRow :=
  [
    snippetRow "automation" "Automation"
      "Automation with a state trigger and a service call"
      [
        "- alias: New automation",
        "  description: \"\"",
        "  mode: single",
        "  trigger:",
        "    - platform: state",
        "      entity_id:",
        "      to: \"on\"",
        "  condition: []",
        "  action:",
        "    - service: light.turn_on",
        "      target:",
        "        entity_id:"],
    snippetRow "script" "Script"
      "Script with a sequence of actions"
      [
        "new_script:",
        "  alias: New script",
        "  mode: single",
        "  sequence:",
        "    - service: homeassistant.turn_on",
        "      target:",
        "        entity_id:"],
    snippetRow "template-sensor" "Template sensor"
      "Template sensor with state and unit"
      [
        "template:",
        "  - sensor:",
        "      - name: New sensor",
        "        unique_id: new_sensor",
        "        unit_of_measurement: \"°C\"",
        "        state: \"\x7b\x7b states('sensor.temperature') | float(0) \x7d\x7d\""],
    snippetRow "template-binary-sensor" "Template binary sensor"
      "Template binary sensor with a device class"
      [
        "template:",
        "  - binary_sensor:",
        "      - name: New binary sensor",
        "        device_class: occupancy",
        "        state: \"\x7b\x7b is_state('binary_sensor.motion', 'on') \x7d\x7d\""],
    snippetRow "choose" "Choose action"
      "Choose between sequences by condition"
      [
        "- choose:",
        "    - conditions:",
        "        - condition: state",
        "          entity_id:",
        "          state: \"on\"",
        "      sequence:",
        "        - service:",
        "  default:",
        "    - service:"],
    snippetRow "if-then" "If/then action"
      "Conditional action with else branch"
      [
        "- if:",
        "    - condition: template",
        "      value_template: \"\x7b\x7b true \x7d\x7d\"",
        "  then:",
        "    - service:",
        "  else:",
        "    - service:"],
    snippetRow "delay" "Delay action"
      "Pause before the next action"
      [
        "- delay:",
        "    hours: 0",
        "    minutes: 1",
        "    seconds: 0"],
    snippetRow "wait-template" "Wait for template"
      "Wait until a template renders true"
      [
        "- wait_template: \"\x7b\x7b is_state('binary_sensor.door', 'off') \x7d\x7d\"",
        "  timeout: \"00:05:00\"",
        "  continue_on_timeout: true"],
    snippetRow "notify" "Notification"
      "Send a notification"
      [
        "- service: notify.notify",
        "  data:",
        "    title: Home Assistant",
        "    message: \"\x7b\x7b trigger.to_state.name \x7d\x7d changed\""]]

def rows : Pool → List Table.Row
  | .domains => domains
  | .automationKeys => automationKeys
  | .automationModes => automationModes
  | .triggers => triggers
  | .conditions => conditions
  | .services => services
  | .actionKeys => actionKeys
  | .commonKeys => commonKeys
  | .escapeTags => escapeTags
  | .sensorPlatforms => sensorPlatforms

def table : Table where
  rows := rows
  snippets := snippets

end ConfigAssist.Builtin

namespace ConfigAssist

/-- The built-in schema. -/
def Schema.builtin : Schema := Builtin.table.schema

end ConfigAssist
