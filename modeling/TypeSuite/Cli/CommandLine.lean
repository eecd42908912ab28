import TypeSuite.Text.Digit
import TypeSuite.Text.Display

/-!
# Command lines

A command line is a list of words. Options may stand anywhere among the files, but the files have to
follow one another. Long options may be shortened as long as they stay unambiguous, and short ones
may be joined into one word.
-/

namespace TypeSuite.Cli

/-- An option of the program. -/
inductive Flag where
  | help | version | suffix | outDir | verbose | config
deriving DecidableEq, Repr

namespace Flag

/-- The spellings of all options. -/
def spellings : List (String × Flag) :=
  [("-h", .help), ("--help", .help), ("--version", .version), ("-s", .suffix),
   ("--suffix", .suffix), ("-o", .outDir), ("--outDir", .outDir), ("--out-dir", .outDir),
   ("-v", .verbose), ("--verbose", .verbose), ("-c", .config), ("--config", .config)]

/-- The option of a spelling. -/
def ofSpelling? (spelling : String) : Option Flag :=
  spellings.lookup spelling

/-- Whether an option takes a value. -/
def takesValue : Flag → Bool
  | .suffix | .outDir | .config => true
  | .help | .version | .verbose => false

/-- The name of an option in reports: all its spellings. -/
def name (f : Flag) : String :=
  "/".intercalate ((spellings.filter fun e => e.2 == f).map (·.1))

end Flag

/-- Why a command line is refused. -/
inductive UsageError where
  | unrecognized (words : List String)
  | missingValue (f : Flag)
  | ambiguous (word : String) (spellings : List String)
  /-- A value for an option that takes none. -/
  | ignoredValue (f : Flag) (value : String)
deriving DecidableEq, Repr

/-- The report of a refused command line. -/
def UsageError.message : UsageError → String
  | .unrecognized words => "unrecognized arguments: " ++ " ".intercalate words
  | .missingValue f => "argument " ++ f.name ++ ": expected one argument"
  | .ambiguous word spellings =>
    "ambiguous option: " ++ word ++ " could match " ++ ", ".intercalate spellings
  | .ignoredValue f value =>
    "argument " ++ f.name ++ ": ignored explicit argument " ++ Text.display value

/-- What comes with an option in the same word. -/
inductive Attached where
  | nothing
  /-- The rest of the word. -/
  | joined (value : String)
  /-- The rest of the word behind an equals sign. -/
  | equated (value : String)
deriving DecidableEq, Repr

/-- What a word of a command line is. -/
inductive Word where
  | file
  /-- Two dashes, behind which all words are files. -/
  | separator
  | option (f : Flag) (attached : Attached)
  | unknown
deriving DecidableEq, Repr

/-- A text cut at its first equals sign. -/
def cutAtEquals (text : List Char) : List Char × Option (List Char) :=
  match text.dropWhile (· != '=') with
  | [] => (text, none)
  | _ :: value => (text.takeWhile (· != '='), some value)

/-- The value behind an equals sign. -/
def attachedOf : Option (List Char) → Attached
  | none => .nothing
  | some value => .equated (String.ofList value)

/-- Whether a text is a run of digits, or is empty. -/
def allDigits (text : List Char) : Bool :=
  text.all fun c => (Text.digitValue? c).isSome

/-- Whether a word is a negative number. -/
def isNegativeNumber (word : List Char) : Bool :=
  match word with
  | '-' :: number =>
    let number := if number.getLast? == some '\n' then number.dropLast else number
    match number.dropWhile (· != '.') with
    | [] => !number.isEmpty && allDigits number
    | _ :: decimals =>
      allDigits (number.takeWhile (· != '.')) && !decimals.isEmpty && allDigits decimals
  | _ => false

/-- The options that a word may mean, each with what is attached to it. -/
def candidates (word : List Char) : List (String × Flag × Attached) :=
  match word with
  | '-' :: '-' :: _ =>
    let (start, value) := cutAtEquals word
    (Flag.spellings.filter fun e => start.isPrefixOf e.1.toList).map fun e =>
      (e.1, e.2, attachedOf value)
  | first :: second :: rest =>
    (Flag.spellings.filter fun e => e.1 == String.ofList [first, second]).map fun e =>
      (e.1, e.2, .joined (String.ofList rest))
  | _ => []

/-- What a word is when no two dashes stand in front of it. -/
def classifyWord (word : String) : Except UsageError Word :=
  let text := word.toList
  if text.head? != some '-' then .ok .file
  else match Flag.ofSpelling? word with
    | some f => .ok (.option f .nothing)
    | none =>
      if text.length = 1 then .ok .file
      else
        let (start, value) := cutAtEquals text
        match value, Flag.ofSpelling? (String.ofList start) with
        | some _, some f => .ok (.option f (attachedOf value))
        | _, _ =>
          match candidates text with
          | [(_, f, attached)] => .ok (.option f attached)
          | [] =>
            if isNegativeNumber text || text.contains ' ' then .ok .file else .ok .unknown
          | many => .error (.ambiguous word (many.map (·.1)))

/-- The words of a command line with what they are. -/
def classify : List String → Except UsageError (List (String × Word))
  | [] => .ok []
  | word :: rest =>
    if word == "--" then .ok ((word, .separator) :: rest.map fun w => (w, .file))
    else do
      let kind ← classifyWord word
      return (word, kind) :: (← classify rest)

/-- What a command line says. -/
structure Options where
  files : List String := []
  suffix : Option String := none
  outDir : Option String := none
  config : Option String := none
  verbose : Bool := false
deriving DecidableEq, Repr

/-- What a command line asks for. -/
inductive Command where
  | build (o : Options)
  | help
  | version
  | refuse (e : UsageError)
deriving DecidableEq, Repr

/-- The reading of a command line so far. -/
structure Draft where
  options : Options
  /-- Whether the files have been met. -/
  filesMet : Bool
  /-- The words that have no place. -/
  extras : List String

/-- Drops the first two dashes among words. -/
def dropSeparator (words : List String) : List String :=
  words.erase "--"

/-- Takes the files of a run of words; only the first run has a place. -/
def Draft.takeFiles (d : Draft) (words : List String) : Draft :=
  if d.filesMet then { d with extras := d.extras ++ words }
  else { d with options.files := dropSeparator words, filesMet := true }

/-- The options that a word holds, with their values. -/
structure Holding where
  options : List (Flag × Option String)
  /-- Letters of the word that are no option. -/
  extra : Option String
  /-- The words that are left. -/
  rest : List (String × Word)

/-- An option whose value, if it takes one, is the next word. -/
def holdAlone (f : Flag) (rest : List (String × Word)) : Except UsageError Holding :=
  if f.takesValue then
    match rest with
    | (word, .file) :: rest => .ok ⟨[(f, some word)], none, rest⟩
    | _ => .error (.missingValue f)
  else .ok ⟨[(f, none)], none, rest⟩

/-- An option with a value behind an equals sign. -/
def holdEquated (f : Flag) (value : String) (rest : List (String × Word)) :
    Except UsageError Holding :=
  if f.takesValue then .ok ⟨[(f, some value)], none, rest⟩
  else .error (.ignoredValue f value)

/-- An option with the rest of its word joined to it: its value, or further options. -/
def holdJoined (f : Flag) (text : List Char) (rest : List (String × Word)) :
    Except UsageError Holding :=
  if f.takesValue then .ok ⟨[(f, some (String.ofList text))], none, rest⟩
  else match text with
    | [] => .error (.ignoredValue f "")
    | c :: more =>
      if c = '-' then .error (.ignoredValue f (String.ofList (c :: more)))
      else match Flag.ofSpelling? (String.ofList ['-', c]) with
        | none => .ok ⟨[(f, none)], some (String.ofList ('-' :: c :: more)), rest⟩
        | some next => do
          let held ← match more with
            | [] => holdAlone next rest
            | '=' :: value => holdEquated next (String.ofList value) rest
            | more => holdJoined next more rest
          return { held with options := (f, none) :: held.options }

/-- What a word that begins with an option holds. -/
def hold (f : Flag) (attached : Attached) (rest : List (String × Word)) :
    Except UsageError Holding :=
  match attached with
  | .nothing => holdAlone f rest
  | .equated value => holdEquated f value rest
  | .joined text => holdJoined f text.toList rest

/-- Takes an option. Two options end the reading at once. -/
def Draft.takeOption (d : Draft) : Flag × Option String → Except Command Draft
  | (.help, _) => .error .help
  | (.version, _) => .error .version
  | (.verbose, _) => .ok { d with options.verbose := true }
  | (.suffix, value) => .ok { d with options.suffix := value }
  | (.outDir, value) => .ok { d with options.outDir := value }
  | (.config, value) => .ok { d with options.config := value }

/-- Whether a word is an option, known or not. -/
def isOption : String × Word → Bool
  | (_, .option ..) | (_, .unknown) => true
  | _ => false

/-- Reads words up to `count` times and gives what the command line says, or what ends its reading
early. -/
def read : Nat → Draft → List (String × Word) → Except Command Draft
  | 0, d, _ => .ok d
  | _, d, [] => .ok d
  | count + 1, d, (word, .unknown) :: rest =>
    read count { d with extras := d.extras ++ [word] } rest
  | count + 1, d, (_, .option f attached) :: rest => do
    let held ← (hold f attached rest).mapError Command.refuse
    let d ← held.options.foldlM Draft.takeOption d
    read count { d with extras := d.extras ++ held.extra.toList } held.rest
  | count + 1, d, words =>
    let run := words.takeWhile fun w => !isOption w
    read count (d.takeFiles (run.map (·.1))) (words.dropWhile fun w => !isOption w)

/-- What a command line asks for. Every round of the reading takes a word. -/
def parse (words : List String) : Command :=
  let result : Except Command Draft := do
    let classified ← (classify words).mapError Command.refuse
    read (classified.length + 1) ⟨{}, false, []⟩ classified
  match result with
  | .error command => command
  | .ok d => if d.extras.isEmpty then .build d.options else .refuse (.unrecognized d.extras)

end TypeSuite.Cli
