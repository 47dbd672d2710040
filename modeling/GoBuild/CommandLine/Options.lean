/-!
# Options of the command

The words of a command line are options with values, flags and paths, in any order. An option takes
its value after an equals sign or as the next word, which must not look like an option. All but the
two lists of tags may be given once. After the word of two hyphens all words are paths.
-/

namespace GoBuild

/-- An option with a value. -/
inductive ValueOption where
  | os
  | arch
  | compiler
  | tags
  | toolTags
  | goVersion
  | config
  | platforms
deriving DecidableEq

namespace ValueOption

/-- The option may be given several times, with lists of values. -/
def isList : ValueOption → Bool
  | tags | toolTags => true
  | _ => false

/-- The value of the option is the path of a file. -/
def isPath : ValueOption → Bool
  | config | platforms => true
  | _ => false

end ValueOption

/-- An option without a value. The flags `verbose` and `quiet` concern the log only. -/
inductive Flag where
  | cgo
  | strict
  | json
  | verbose
  | quiet
deriving DecidableEq

/-- What the name of an option stands for. -/
inductive OptionKind where
  | value (option : ValueOption)
  | flag (flag : Flag)
  | version
  | help
deriving DecidableEq

/-- The options by their long names. -/
def OptionKind.longNames : List (String × OptionKind) :=
  [("goos", .value .os), ("goarch", .value .arch), ("compiler", .value .compiler),
   ("cgo", .flag .cgo), ("tags", .value .tags), ("tool-tags", .value .toolTags),
   ("go-version", .value .goVersion), ("config", .value .config),
   ("platforms", .value .platforms), ("strict", .flag .strict), ("json", .flag .json),
   ("verbose", .flag .verbose), ("quiet", .flag .quiet), ("version", .version), ("help", .help)]

/-- The options by their letters. -/
def OptionKind.letters : List (Char × OptionKind) :=
  [('v', .flag .verbose), ('q', .flag .quiet), ('V', .version), ('h', .help)]

/-- The options given, and the paths. -/
structure Options where
  /-- The options with their values, in order. -/
  values : List (ValueOption × String) := []
  flags : List Flag := []
  paths : List String := []

namespace Options

/-- The value of an option that may be given once. -/
def value? (o : Options) (option : ValueOption) : Option String := o.values.lookup option

/-- The flag is given. -/
def has (o : Options) (flag : Flag) : Bool := o.flags.contains flag

/-- The tags that all lists of an option hold, without empty ones. -/
def listed (o : Options) (option : ValueOption) : List String :=
  let lists := (o.values.filter fun v => decide (v.1 = option)).map (·.2)
  (lists.flatMap fun list => (list.toList.splitOn ',').map String.ofList).filter (· ≠ "")

end Options

/-- What a command line asks for. -/
inductive Command where
  | run (options : Options)
  | version
  | help

/-- Why a command line cannot be understood. -/
inductive UsageError where
  | unknownOption (word : String)
  | repeatedOption (word : String)
  | missingValue (word : String)
  | unexpectedValue (word : String)
  | emptyPath
  | noPath
deriving DecidableEq

namespace Options

/-- Adds a path. -/
def addPath (o : Options) (path : String) : Except UsageError Options :=
  if path = "" then .error .emptyPath else .ok { o with paths := o.paths ++ [path] }

/-- Adds an option with its value. -/
def addValue (o : Options) (word : String) (option : ValueOption) (value : String) :
    Except UsageError Options :=
  if !option.isList && (o.value? option).isSome then .error (.repeatedOption word)
  else if option.isPath && value = "" then .error .emptyPath
  else .ok { o with values := o.values ++ [(option, value)] }

/-- Adds a flag. -/
def addFlag (o : Options) (word : String) (flag : Flag) : Except UsageError Options :=
  if o.has flag then .error (.repeatedOption word) else .ok { o with flags := o.flags ++ [flag] }

end Options

namespace Command

/-- The word looks like an option: it begins with a hyphen and is not a hyphen alone. -/
def looksLikeOption (word : String) : Bool :=
  match word.toList with
  | '-' :: _ :: _ => true
  | _ => false

/-- Reads the letters of a word with one hyphen. The version and the help end the reading. -/
def readLetters (o : Options) (word : String) : List Char → Except UsageError (Options ⊕ Command)
  | [] => .ok (.inl o)
  | letter :: rest =>
    match OptionKind.letters.lookup letter with
    | some (.flag flag) =>
      match o.addFlag word flag with
      | .ok o => readLetters o word rest
      | .error e => .error e
    | some .version => .ok (.inr .version)
    | some .help => .ok (.inr .help)
    | some (.value _) | none => .error (.unknownOption word)

/-- The long name of a word with two hyphens, and the value after its first equals sign. -/
def splitLong (body : List Char) : String × Option String :=
  (String.ofList (body.takeWhile (· ≠ '=')),
    match body.dropWhile (· ≠ '=') with
    | [] => none
    | _ :: value => some (String.ofList value))

/-- The command to run, if there is a path. -/
def ofOptions (o : Options) : Except UsageError Command :=
  if o.paths.isEmpty then .error .noPath else .ok (.run o)

/-- Reads the words of a command line after the options `o`. -/
def parseFrom (o : Options) : List String → Except UsageError Command
  | [] => ofOptions o
  | word :: rest =>
    match word.toList with
    | ['-', '-'] => (rest.foldlM Options.addPath o).bind ofOptions
    | '-' :: '-' :: body =>
      let (name, attached) := splitLong body
      match OptionKind.longNames.lookup name, attached with
      | none, _ => .error (.unknownOption word)
      | some (.value option), some value =>
        match o.addValue word option value with
        | .ok o => parseFrom o rest
        | .error e => .error e
      | some (.value option), none =>
        match rest with
        | [] => .error (.missingValue word)
        | value :: more =>
          if looksLikeOption value then .error (.missingValue word)
          else
            match o.addValue word option value with
            | .ok o => parseFrom o more
            | .error e => .error e
      | some _, some _ => .error (.unexpectedValue word)
      | some (.flag flag), none =>
        match o.addFlag word flag with
        | .ok o => parseFrom o rest
        | .error e => .error e
      | some .version, none => .ok .version
      | some .help, none => .ok .help
    | '-' :: letter :: letters =>
      match readLetters o word (letter :: letters) with
      | .ok (.inl o) => parseFrom o rest
      | .ok (.inr command) => .ok command
      | .error e => .error e
    | _ =>
      match o.addPath word with
      | .ok o => parseFrom o rest
      | .error e => .error e

/-- The command that the words of a command line give. -/
def parse (words : List String) : Except UsageError Command := parseFrom {} words

end Command

end GoBuild
