import QueryTemplate.Text.Quoted

/-!
# Errors

What can go wrong, as causes. A `TemplateError` says that the arguments do not fit a template and
has a machine-readable report; a `BuildError` is any failure of a build; a `ConfigError` is a
failure to set one up. The wording of each cause is written here and nowhere else.
-/

namespace QueryTemplate

/-- The most digits that an integer may have where it is read from text or written as text. -/
def digitLimit : Nat := 4300

inductive TemplateError where
  /-- A marker is reached when all supplied arguments are used. -/
  | missingArgument (position : Int) (marker : Text) (supplied : Int)
  | notAnArray (marker : Text) (received : String)
  | unsupportedType (received : String)
deriving DecidableEq

inductive Detail where
  | number (n : Int)
  | text (s : String)
deriving DecidableEq

structure Report where
  code : String
  message : String
  details : List (String × Detail)
deriving DecidableEq

namespace TemplateError

def code : TemplateError → String
  | missingArgument .. => "INSUFFICIENT_ARGUMENTS"
  | notAnArray .. => "INVALID_ARGUMENT_TYPE"
  | unsupportedType .. => "UNSUPPORTED_TYPE"

def message : TemplateError → String
  | missingArgument position marker supplied =>
    "Insufficient arguments provided for placeholders: " ++
      s!"marker '{String.ofList marker}' needs argument #{position}, only {supplied} supplied."
  | notAnArray marker received =>
    s!"Expected array for placeholder {String.ofList marker}, got {received}."
  | unsupportedType received => s!"Values of type '{received}' cannot be rendered as SQL."

def details : TemplateError → List (String × Detail)
  | missingArgument position marker supplied =>
    [("position", .number position), ("marker", .text (String.ofList marker)),
      ("supplied", .number supplied)]
  | notAnArray marker received =>
    [("marker", .text (String.ofList marker)), ("received", .text received)]
  | unsupportedType received => [("received", .text received)]

def report (e : TemplateError) : Report := ⟨e.code, e.message, e.details⟩

end TemplateError

inductive BuildError where
  | template (cause : TemplateError)
  | unknownMarker (code : Text)
  /-- A text spells an integer with more digits than `digitLimit`. -/
  | unreadableInteger (digits : Nat)
  /-- An integer has more digits than `digitLimit`. -/
  | unwritableInteger
  | integerTooLarge
  /-- An escape function answers bytes that are no text. -/
  | undecodableReply
  /-- A position counted from the end lies before the first argument. -/
  | noSuchArgument
deriving DecidableEq

namespace BuildError

/-- A value of this type has no form in a query. -/
abbrev unsupported (typeName : String) : BuildError := .template (.unsupportedType typeName)

def message : BuildError → String
  | template cause => cause.message
  | unknownMarker code => s!"{String.ofList code.quoted} is not a valid MarkerType"
  | unreadableInteger digits =>
    s!"Exceeds the limit ({digitLimit} digits) for integer string conversion: " ++
      s!"value has {digits} digits; use sys.set_int_max_str_digits() to increase the limit"
  | unwritableInteger =>
    s!"Exceeds the limit ({digitLimit} digits) for integer string conversion; " ++
      "use sys.set_int_max_str_digits() to increase the limit"
  | integerTooLarge => "int too large to convert to float"
  | undecodableReply => "the reply of the escape function is not valid UTF-8"
  | noSuchArgument => "list index out of range"

end BuildError

inductive ConfigError where
  | unknownDialect (name : String) (registered : List String)
  | noEscapeFunction (typeName : String)
  /-- The setting at a location is unknown or has an unacceptable value; the location is empty
  when the settings are not a mapping. -/
  | invalidSetting (location : String)
deriving DecidableEq

namespace ConfigError

def setting : ConfigError → String
  | unknownDialect .. => "dialect"
  | noEscapeFunction _ => "escaper"
  | invalidSetting location => location

def message? : ConfigError → Option String
  | unknownDialect name registered =>
    let names := ", ".intercalate (registered.map fun n => String.ofList (Text.quoted n.toList))
    some s!"Unsupported dialect: '{name}'. Registered dialects: [{names}]."
  | noEscapeFunction typeName =>
    some (s!"{typeName} has no escape_string() method; " ++
      "pass an Escaper or an escape function instead.")
  | invalidSetting _ => none

end ConfigError

end QueryTemplate
