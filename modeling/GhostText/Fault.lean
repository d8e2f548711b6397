import GhostText.Json.Display
import GhostText.Json.Reader

/-!
# Faults

Everything that can go wrong, by cause. A fault has a class, whose name the peer is told when there
is no message to tell, and a message.
-/

namespace GhostText

/-- The error object of a response. Data may be absent, which is not the same as null. -/
structure ResponseError where
  code : Int
  message : String
  data : Option Json
  deriving Repr

inductive FaultClass where
  | general
  | value
  | type
  | key
  | index
  | overflow
  | runtime
  | depth
  | response
  | notPending
  | edit
  | settings
  | exit
  deriving DecidableEq, Repr

def FaultClass.name : FaultClass → String
  | .general => "Exception"
  | .value => "ValueError"
  | .type => "TypeError"
  | .key => "KeyError"
  | .index => "IndexError"
  | .overflow => "OverflowError"
  | .runtime => "RuntimeError"
  | .depth => "RecursionError"
  | .response => "ResponseError"
  | .notPending => "RequestNotPendingError"
  | .edit => "EditorApplyError"
  | .settings => "SettingsStoreError"
  | .exit => "SystemExit"

/-- The comparisons and sums that not every pair of values has. -/
inductive Operator where
  | less
  | lessEqual
  | greater
  | greaterEqual
  deriving DecidableEq, Repr

def Operator.sign : Operator → String
  | .less => "<"
  | .lessEqual => "<="
  | .greater => ">"
  | .greaterEqual => ">="

inductive Fault where
  /-- The peer, or the client in its place, answered with an error. -/
  | response (e : ResponseError)
  /-- A request to be cancelled is not pending; the method is known if it ever was sent. -/
  | notPending (id : String) (method : Option String)
  /-- A host callback failed on its own account. -/
  | raised (kind : FaultClass) (message : String)
  | missingKey (key : String)
  | notInteger (text : String)
  | tooManyDigits (count : Nat)
  | noIntegerValue (kind : String)
  | nanAsInteger
  | infinityAsInteger
  | notIterable (kind : String)
  | notPath (kind : String)
  /-- An item of what should make up an object has no items itself. -/
  | notSequence (index : Nat)
  /-- An item of what should make up an object has too few or too many items. -/
  | notPair (index length : Nat)
  | notCallable (kind : String)
  | notOrdered (op : Operator) (left right : String)
  | notAddable (kind : String)
  | notAnIndex (kind : String)
  | noSuchLine
  | unhashable (kind : String)
  | emptySeparator
  | emptyHistory
  | emptyKey
  | unknownEvent (name : String) (known : List String)
  /-- A position beyond the last line, or beyond the end of its line. -/
  | outsideBuffer (line character : String)
  | alreadyStarted (uuid : String)
  | cannotSave (path reason : String)
  | noServer
  /-- The home directory of another user is not known. -/
  | unknownHome
  /-- Callbacks called one another too deeply. -/
  | tooDeep
  deriving Repr

namespace Fault

/-- What cannot be added to an integer: each kind of value has its own wording. -/
def addMessage : String → String
  | "str" => "can only concatenate str (not \"int\") to str"
  | "list" => "can only concatenate list (not \"int\") to list"
  | kind => "unsupported operand type(s) for +: '" ++ kind ++ "' and 'int'"

def kind : Fault → FaultClass
  | .response _ => .response
  | .notPending _ _ => .notPending
  | .raised c _ => c
  | .missingKey _ => .key
  | .notInteger _ => .value
  | .tooManyDigits _ => .value
  | .noIntegerValue _ => .type
  | .nanAsInteger => .value
  | .infinityAsInteger => .overflow
  | .notIterable _ => .type
  | .notPath _ => .type
  | .notSequence _ => .type
  | .notPair _ _ => .value
  | .notCallable _ => .type
  | .notOrdered _ _ _ => .type
  | .notAddable _ => .type
  | .notAnIndex _ => .type
  | .noSuchLine => .index
  | .unhashable _ => .type
  | .emptySeparator => .value
  | .emptyHistory => .index
  | .emptyKey => .value
  | .unknownEvent _ _ => .value
  | .outsideBuffer _ _ => .edit
  | .alreadyStarted _ => .runtime
  | .cannotSave _ _ => .settings
  | .noServer => .exit
  | .unknownHome => .runtime
  | .tooDeep => .depth

def name (f : Fault) : String := f.kind.name

def message : Fault → String
  | .response e => e.message
  | .notPending id none => "Request " ++ id ++ " is not pending"
  | .notPending id (some method) => "Request " ++ id ++ " (" ++ method ++ ") is not pending"
  | .raised .key text => if text.isEmpty then "" else Text.quoted text
  | .raised _ text => text
  | .missingKey key => Text.quoted key
  | .notInteger text => "invalid literal for int() with base 10: " ++ Text.quoted text
  | .tooManyDigits n => Json.tooManyDigitsMessage n
  | .noIntegerValue kind =>
    "int() argument must be a string, a bytes-like object or a real number, not '" ++ kind ++ "'"
  | .nanAsInteger => "cannot convert float NaN to integer"
  | .infinityAsInteger => "cannot convert float infinity to integer"
  | .notIterable kind => "'" ++ kind ++ "' object is not iterable"
  | .notPath kind => "expected str, bytes or os.PathLike object, not " ++ kind
  | .notSequence index =>
    "cannot convert dictionary update sequence element #" ++ toString index ++ " to a sequence"
  | .notPair index length =>
    "dictionary update sequence element #" ++ toString index ++ " has length " ++
      toString length ++ "; 2 is required"
  | .notCallable kind => "'" ++ kind ++ "' object is not callable"
  | .notOrdered op left right =>
    "'" ++ op.sign ++ "' not supported between instances of '" ++ left ++ "' and '" ++ right ++ "'"
  | .notAddable kind => addMessage kind
  | .notAnIndex kind => "list indices must be integers or slices, not " ++ kind
  | .noSuchLine => "list index out of range"
  | .unhashable kind => "unhashable type: '" ++ kind ++ "'"
  | .emptySeparator => "empty separator"
  | .emptyHistory => "pop from empty list"
  | .emptyKey => "Key cannot be empty."
  | .unknownEvent name known =>
    "Unknown event " ++ name ++ "; expected one of " ++ ", ".intercalate known
  | .outsideBuffer line character =>
    "Position " ++ line ++ ":" ++ character ++ " is outside the buffer"
  | .alreadyStarted uuid => "Completion session " ++ uuid ++ " was already started"
  | .cannotSave path reason => "Could not write settings file '" ++ path ++ "': " ++ reason
  | .noServer => "server_path is not configured; set it in the settings file."
  | .unknownHome => "Could not determine home directory."
  | .tooDeep => "maximum recursion depth exceeded"

/-- What the peer is told of a fault. -/
def report (f : Fault) : String := if f.message.isEmpty then f.name else f.message

end Fault

theorem eq_ok_of_toOption {ε α : Type} {x : Except ε α} {a : α} (h : x.toOption = some a) :
    x = .ok a := by
  cases x with
  | error f => cases h
  | ok b => rw [Option.some.inj h]

theorem exists_of_bind_eq_ok {α β : Type} {x : Except Fault α} {f : α → Except Fault β} {r : β}
    (h : x >>= f = .ok r) : ∃ a, x = .ok a ∧ f a = .ok r := by
  cases x with
  | error e => cases h
  | ok a => exact ⟨a, rfl, h⟩

theorem error_of_bind_eq_error {α β : Type} {x : Except Fault α} {f : α → Except Fault β}
    {e : Fault} (h : x >>= f = .error e) : x = .error e ∨ ∃ a, x = .ok a ∧ f a = .error e := by
  cases x with
  | error g =>
    cases h
    exact .inl rfl
  | ok a => exact .inr ⟨a, rfl, h⟩

end GhostText
