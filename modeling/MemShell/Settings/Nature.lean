import MemShell.Settings.Basic

/-!
# The natures of what stands in the settings

Every section and every value is of some nature, and so are the operations on them and the natures
themselves. A nature has a name and a home, rests on other natures, and comes with operations of its
own.
-/

namespace MemShell

/-- The forms in which an operation is met. -/
inductive OperationForm
  /-- A basic operation, at what it works on. -/
  | basicAt
  /-- An ordinary operation, at what it works on. -/
  | ordinaryAt
  /-- An operation that was written for its nature, at what it works on. -/
  | writtenAt
  /-- A basic operation by itself. -/
  | basic
  /-- An ordinary operation by itself. -/
  | ordinary
  /-- An operation by itself that was written for its nature. -/
  | written
  /-- What reads a part that is worked out. -/
  | reader
  /-- What reads a part that is kept. -/
  | slotReader
  deriving DecidableEq

/-- What a section, a value or an operation can be. -/
inductive Nature
  /-- Anything at all: every nature rests on this one. -/
  | anything
  /-- A nature. -/
  | nature
  /-- The settings as a whole. -/
  | settings
  /-- A section of the settings. -/
  | sectionOf (name : SectionName)
  /-- The choices by which sections are made. -/
  | choices
  /-- The null value. -/
  | null
  /-- A truth value. -/
  | bool
  /-- A whole number. -/
  | int
  /-- A number of double precision. -/
  | float
  /-- A text. -/
  | text
  /-- A row of values that stays as it is. -/
  | row
  /-- A list of values. -/
  | list
  /-- A list of values under names. -/
  | mapping
  /-- An operation. -/
  | operation (form : OperationForm)
  deriving DecidableEq

/-- How a nature comes by an operation. -/
inductive OperationSource
  /-- It is built in and stands behind a sign, a comparison or a conversion. -/
  | basic
  /-- It is built in and called by its name. -/
  | ordinary
  /-- It works on the nature itself and not on a member. -/
  | onNature
  /-- It makes a new member. -/
  | maker
  /-- It works on nothing. -/
  | free
  /-- It was written for the nature. -/
  | written
  /-- It reads a part that is worked out. -/
  | reader
  /-- It reads a part that is kept. -/
  | slotReader

/-- Whether a value consists of other values. -/
def Json.isCollection : Json → Bool
  | array _ | object _ => true
  | _ => false

/-- The name of a form. -/
def OperationForm.name : OperationForm → Text
  | basicAt => "method-wrapper"
  | ordinaryAt => "builtin_function_or_method"
  | writtenAt => "method"
  | basic => "wrapper_descriptor"
  | ordinary => "method_descriptor"
  | written => "function"
  | reader => "getset_descriptor"
  | slotReader => "member_descriptor"

/-- What is said about a section. -/
def SectionName.note : SectionName → Text
  | shell => "Shell prompt and history settings."
  | environment => "Initial environment of a shell session."
  | filesystem => "Layout of the default file system."
  | logging => "Logging configuration settings."

/-- The choices by which sections are made. -/
def sectionChoices : Fields :=
  [("init".toList, .bool true), ("repr".toList, .bool true), ("eq".toList, .bool true),
    ("order".toList, .bool false), ("unsafe_hash".toList, .bool false),
    ("frozen".toList, .bool false)]

namespace Nature

/-- The name of a nature. -/
def name : Nature → Text
  | anything => "object"
  | nature => "type"
  | settings => "Config"
  | sectionOf name => name.title
  | choices => "_DataclassParams"
  | null => "NoneType"
  | bool => "bool"
  | int => "int"
  | float => "float"
  | text => "str"
  | row => "tuple"
  | list => "list"
  | mapping => "dict"
  | operation form => form.name

/-- Where a nature is at home. -/
def home : Nature → Text
  | settings | sectionOf _ => "shellsim.core.config_loader"
  | choices => "dataclasses"
  | _ => "builtins"

/-- A nature with those that it rests on, the nearest first. -/
def lineage : Nature → List Nature
  | anything => [anything]
  | bool => [bool, int, anything]
  | own => [own, anything]

/-- The names of the fields that every member of a nature has. -/
def fieldNames : Nature → List Text
  | settings => SectionName.all.map SectionName.key
  | sectionOf name => name.defaults.map Prod.fst
  | _ => []

/-- The fields whose built-in values are kept with the nature: those that do not consist of others.
-/
def constants : Nature → Fields
  | sectionOf name => name.defaults.filter fun (_, default) => !default.isCollection
  | _ => []

/-- The operations of the names in a line. -/
def named (source : OperationSource) (line : Text) : List (Text × OperationSource) :=
  (Text.splitOn ' ' line).map fun name => (name, source)

/-- The operations of the reserved names in a line, which stand between double underscores. -/
def reserved (source : OperationSource) (line : Text) : List (Text × OperationSource) :=
  (Text.splitOn ' ' line).map fun name => ("__" ++ name ++ "__", source)

/-- The operations that a nature does not have from another one. -/
def operations : Nature → List (Text × OperationSource)
  | anything =>
    reserved .basic "delattr eq ge getattribute gt hash init le lt ne repr setattr str" ++
      reserved .ordinary "dir format getstate reduce reduce_ex sizeof" ++
      reserved .onNature "init_subclass subclasshook" ++ reserved .maker "new"
  | nature =>
    reserved .basic "call delattr getattribute init or repr ror setattr" ++
      reserved .ordinary "dir instancecheck sizeof subclasscheck subclasses" ++
      named .ordinary "mro" ++ reserved .onNature "prepare" ++ reserved .maker "new"
  | settings | sectionOf _ => reserved .written "eq init repr" ++ reserved .reader "weakref"
  | choices =>
    reserved .written "init repr" ++
      sectionChoices.map fun (choice, _) => (choice, OperationSource.slotReader)
  | null => reserved .basic "bool repr" ++ reserved .maker "new"
  | bool => reserved .basic "and or rand repr ror rxor xor" ++ reserved .maker "new"
  | int =>
    reserved .basic "abs add and bool divmod eq float floordiv ge getattribute gt hash index int" ++
      reserved .basic "invert le lshift lt mod mul ne neg or pos pow radd rand rdivmod repr" ++
      reserved .basic "rfloordiv rlshift rmod rmul ror rpow rrshift rshift rsub rtruediv rxor" ++
      reserved .basic "sub truediv xor" ++
      reserved .ordinary "ceil floor format getnewargs round sizeof trunc" ++
      named .ordinary "as_integer_ratio bit_count bit_length conjugate to_bytes" ++
      named .onNature "from_bytes" ++ reserved .maker "new" ++
      named .reader "denominator imag numerator real"
  | float =>
    reserved .basic "abs add bool divmod eq float floordiv ge getattribute gt hash int le lt mod" ++
      reserved .basic "mul ne neg pos pow radd rdivmod repr rfloordiv rmod rmul rpow rsub" ++
      reserved .basic "rtruediv sub truediv" ++
      reserved .ordinary "ceil floor format getnewargs round trunc" ++
      named .ordinary "as_integer_ratio conjugate hex is_integer" ++
      reserved .onNature "getformat" ++ named .onNature "fromhex" ++ reserved .maker "new" ++
      named .reader "imag real"
  | text =>
    reserved .basic "add contains eq ge getattribute getitem gt hash iter le len lt mod mul ne" ++
      reserved .basic "repr rmod rmul str" ++ reserved .ordinary "format getnewargs sizeof" ++
      named .ordinary "capitalize casefold center count encode endswith expandtabs find format" ++
      named .ordinary "format_map index isalnum isalpha isascii isdecimal isdigit isidentifier" ++
      named .ordinary "islower isnumeric isprintable isspace istitle isupper join ljust lower" ++
      named .ordinary "lstrip partition removeprefix removesuffix replace rfind rindex rjust" ++
      named .ordinary "rpartition rsplit rstrip split splitlines startswith strip swapcase" ++
      named .ordinary "title translate upper zfill" ++
      named .free "maketrans" ++ reserved .maker "new"
  | row =>
    reserved .basic "add contains eq ge getattribute getitem gt hash iter le len lt mul ne repr" ++
      reserved .basic "rmul" ++ reserved .ordinary "getnewargs" ++ named .ordinary "count index" ++
      reserved .onNature "class_getitem" ++ reserved .maker "new"
  | list =>
    reserved .basic "add contains delitem eq ge getattribute gt iadd imul init iter le len lt" ++
      reserved .basic "mul ne repr rmul setitem" ++ reserved .ordinary "getitem reversed sizeof" ++
      named .ordinary "append clear copy count extend index insert pop remove reverse sort" ++
      reserved .onNature "class_getitem" ++ reserved .maker "new"
  | mapping =>
    reserved .basic "delitem eq ge getattribute gt init ior iter le len lt ne or repr ror setitem" ++
      reserved .ordinary "contains getitem reversed sizeof" ++
      named .ordinary "clear copy get items keys pop popitem setdefault update values" ++
      reserved .onNature "class_getitem" ++ named .onNature "fromkeys" ++ reserved .maker "new"
  | operation .basicAt | operation .ordinaryAt =>
    reserved .basic "call eq ge getattribute gt hash le lt ne repr" ++ reserved .ordinary "reduce"
  | operation .writtenAt =>
    reserved .basic "call delattr eq ge getattribute gt hash le lt ne repr setattr" ++
      reserved .ordinary "reduce" ++ reserved .maker "new"
  | operation .basic | operation .ordinary =>
    reserved .basic "call get getattribute repr" ++ reserved .ordinary "reduce"
  | operation .written => reserved .basic "call get repr" ++ reserved .maker "new"
  | operation .reader => reserved .basic "delete get getattribute repr set"
  | operation .slotReader =>
    reserved .basic "delete get getattribute repr set" ++ reserved .ordinary "reduce"

/-- The lines of what is said about a nature. -/
def noteLines : Nature → List Text
  | anything =>
    ["The base class of the class hierarchy.",
      "",
      "When called, it accepts no arguments and returns a new featureless",
      "instance that has no instance attributes and cannot be given any.",
      ""]
  | nature =>
    ["type(object) -> the object's type",
      "type(name, bases, dict, **kwds) -> a new type"]
  | settings =>
    ["",
      "    Main configuration container.",
      "",
      "    Holds every configuration section of a shell session.",
      "    "]
  | sectionOf name => [name.note]
  | bool =>
    ["bool(x) -> bool",
      "",
      "Returns True when the argument x is true, False otherwise.",
      "The builtins True and False are the only two instances of the class bool.",
      "The class bool is a subclass of the class int, and cannot be subclassed."]
  | int =>
    ["int([x]) -> integer",
      "int(x, base=10) -> integer",
      "",
      "Convert a number or string to an integer, or return 0 if no arguments",
      "are given.  If x is a number, return x.__int__().  For floating point",
      "numbers, this truncates towards zero.",
      "",
      "If x is not a number or if base is given, then x must be a string,",
      "bytes, or bytearray instance representing an integer literal in the",
      "given base.  The literal can be preceded by '+' or '-' and be surrounded",
      "by whitespace.  The base defaults to 10.  Valid bases are 0 and 2-36.",
      "Base 0 means to interpret the base from the string as an integer literal.",
      ">>> int('0b100', base=0)",
      "4"]
  | float => ["Convert a string or number to a floating point number, if possible."]
  | text =>
    ["str(object='') -> str",
      "str(bytes_or_buffer[, encoding[, errors]]) -> str",
      "",
      "Create a new string object from the given object. If encoding or",
      "errors is specified, then the object must expose a data buffer",
      "that will be decoded using the given encoding and error handler.",
      "Otherwise, returns the result of object.__str__() (if defined)",
      "or repr(object).",
      "encoding defaults to sys.getdefaultencoding().",
      "errors defaults to 'strict'."]
  | row =>
    ["Built-in immutable sequence.",
      "",
      "If no argument is given, the constructor returns an empty tuple.",
      "If iterable is specified the tuple is initialized from iterable's items.",
      "",
      "If the argument is a tuple, the return value is the same object."]
  | list =>
    ["Built-in mutable sequence.",
      "",
      "If no argument is given, the constructor creates a new empty list.",
      "The argument must be an iterable if specified."]
  | mapping =>
    ["dict() -> new empty dictionary",
      "dict(mapping) -> new dictionary initialized from a mapping object's",
      "    (key, value) pairs",
      "dict(iterable) -> new dictionary initialized as if via:",
      "    d = \x7b\x7d",
      "    for k, v in iterable:",
      "        d[k] = v",
      "dict(**kwargs) -> new dictionary initialized with the name=value pairs",
      "    in the keyword argument list.  For example:  dict(one=1, two=2)"]
  | choices | null | operation _ => []

/-- What is said about a nature: null where nothing is, and nothing at all about operations. -/
def note? : Nature → Option Json
  | operation _ => none
  | choices | null => some .null
  | own => some (.string (Text.join "\n" own.noteLines))

end Nature

/-- The nature of a value. -/
def Json.nature : Json → Nature
  | null => .null
  | bool _ => .bool
  | int _ => .int
  | float _ => .float
  | string _ => .text
  | array _ => .list
  | object _ => .mapping

end MemShell
