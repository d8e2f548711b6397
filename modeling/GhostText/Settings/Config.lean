import GhostText.Fault
import GhostText.Json.Convert
import GhostText.Text.Lines

/-!
# Configuration

The configuration is read from a value of any shape. What is missing takes its default, numbers are
brought into their bounds, words that are not among the known ones and empty texts give way to the
default. Only an infinite number is refused.
-/

namespace GhostText

inductive Verbosity where
  | off
  | error
  | debug
  deriving DecidableEq, Repr

inductive Trace where
  | off
  | messages
  | verbose
  deriving DecidableEq, Repr

inductive TransportMode where
  | pipe
  | relay
  deriving DecidableEq, Repr

def Verbosity.name : Verbosity → String
  | .off => "off"
  | .error => "error"
  | .debug => "debug"

def Trace.name : Trace → String
  | .off => "off"
  | .messages => "messages"
  | .verbose => "verbose"

def TransportMode.name : TransportMode → String
  | .pipe => "pipe"
  | .relay => "relay"

/-- The word of a value among known ones: blanks around it and capital letters do not matter. -/
def choose {α : Type} (name : α → String) (known : List α) (fallback : α) (v : Json) : α :=
  let word := Text.fold (Text.trim (v.textOr (name fallback)))
  (known.find? fun a => name a == word).getD fallback

def Verbosity.ofJson (v : Json) : Verbosity := choose name [.off, .error, .debug] .error v

def Trace.ofJson (v : Json) : Trace := choose name [.off, .messages, .verbose] .off v

def TransportMode.ofJson (v : Json) : TransportMode := choose name [.pipe, .relay] .pipe v

structure Config where
  disableCompletions : Bool
  inlineInSource : Bool
  debounceMs : Int
  acceptKey : String
  logging : Verbosity
  trace : Trace
  transport : TransportMode
  nodePath : String
  serverPath : String
  serverArgs : List String
  relayHost : String
  relayPort : Int
  tabSize : Int
  insertSpaces : Bool
  useCrlf : Bool
  editorName : String
  editorVersion : String
  pluginName : String
  pluginVersion : String
  deriving DecidableEq, Repr

namespace Config

def eol (c : Config) : LineBreak := if c.useCrlf then .crlf else .lf

def fields (c : Config) : Fields :=
  [("disable_completions", .bool c.disableCompletions),
    ("use_inline_completion_text_in_source", .bool c.inlineInSource),
    ("debounce_ms", .int c.debounceMs),
    ("accept_key", .str c.acceptKey),
    ("logging", .str c.logging.name),
    ("trace", .str c.trace.name),
    ("transport", .str c.transport.name),
    ("node_path", .str c.nodePath),
    ("server_path", .str c.serverPath),
    ("server_args", .arr (c.serverArgs.map .str)),
    ("relay_host", .str c.relayHost),
    ("relay_port", .int c.relayPort),
    ("tab_size", .int c.tabSize),
    ("insert_spaces", .bool c.insertSpaces),
    ("use_crlf", .bool c.useCrlf),
    ("editor_name", .str c.editorName),
    ("editor_version", .str c.editorVersion),
    ("plugin_name", .str c.pluginName),
    ("plugin_version", .str c.pluginVersion)]

def toJson (c : Config) : Json := .obj c.fields

def default : Config where
  disableCompletions := false
  inlineInSource := true
  debounceMs := 500
  acceptKey := "Tab"
  logging := .error
  trace := .off
  transport := .pipe
  nodePath := "node"
  serverPath := ""
  serverArgs := ["--stdio"]
  relayHost := "127.0.0.1"
  relayPort := 0
  tabSize := 4
  insertSpaces := true
  useCrlf := false
  editorName := "copilot-bridge"
  editorVersion := "0.1.0"
  pluginName := "copilot-bridge"
  pluginVersion := "0.1.0"

/-- A number within bounds; what is no number is the fallback. -/
def bounded (low high fallback : Int) (v : Json) : Except Fault Int :=
  match v.toInteger with
  | .ok n => .ok (max low (min high n))
  | .error f => if f.kind = .value ∨ f.kind = .type then .ok fallback else .error f

/-- A text without blanks around it; an empty one is the fallback. -/
def textOf (fallback : String) (v : Json) : String :=
  let s := Text.trim v.textOrEmpty
  if s.isEmpty then fallback else s

/-- Arguments are the words of a text, or the items of an array that are not blank. -/
def argumentsOf : Json → List String
  | .str s => Text.words s
  | .arr items => (items.filter fun v => !(Text.trim v.textOrEmpty).isEmpty).map Json.shown
  | _ => default.serverArgs

/-- The configuration made of the value under each key, with its numbers already within bounds. -/
def assemble (v : String → Json) (debounceMs relayPort tabSize : Int) : Config where
  disableCompletions := (v "disable_completions").truthy
  inlineInSource := (v "use_inline_completion_text_in_source").truthy
  debounceMs := debounceMs
  acceptKey := textOf default.acceptKey (v "accept_key")
  logging := Verbosity.ofJson (v "logging")
  trace := Trace.ofJson (v "trace")
  transport := TransportMode.ofJson (v "transport")
  nodePath := textOf default.nodePath (v "node_path")
  serverPath := Text.trim (v "server_path").textOrEmpty
  serverArgs := argumentsOf (v "server_args")
  relayHost := textOf default.relayHost (v "relay_host")
  relayPort := relayPort
  tabSize := tabSize
  insertSpaces := (v "insert_spaces").truthy
  useCrlf := (v "use_crlf").truthy
  editorName := textOf default.editorName (v "editor_name")
  editorVersion := textOf default.editorVersion (v "editor_version")
  pluginName := textOf default.pluginName (v "plugin_name")
  pluginVersion := textOf default.pluginVersion (v "plugin_version")

/-- The members of a value over the defaults. -/
def withDefaults (raw : Json) : Fields :=
  raw.fields.foldl (fun fs f => Fields.put f.1 f.2 fs) default.fields

/-- The configuration a value describes. -/
def ofJson (raw : Json) : Except Fault Config := do
  let data := withDefaults raw
  let v key := (Json.obj data).fieldD key
  let debounceMs ← bounded 0 10000 default.debounceMs (v "debounce_ms")
  let relayPort ← bounded 0 65535 default.relayPort (v "relay_port")
  let tabSize ← bounded 1 16 default.tabSize (v "tab_size")
  return assemble v debounceMs relayPort tabSize

/-- The settings a value stands for, each of them with a value that holds. -/
def normalize (raw : Json) : Except Fault Json := (ofJson raw).map toJson

end Config

end GhostText
