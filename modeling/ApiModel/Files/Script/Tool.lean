import ApiModel.Files.Script.State

/-!
# Tools

What the tools do that scripts call: the ones of the shell itself, and those for files. A tool gets
its arguments as texts and leaves a status.
-/

namespace ApiModel.Files.Script

/-! ## Numbers and escapes -/

/-- Whether a character is a blank around a number. -/
def isBlank (c : Char) : Bool :=
  c == ' ' || (0x09 ≤ c.toNat && c.toNat ≤ 0x0D)

/-- The number that a text stands for; blanks may stand around it. -/
def number? (text : String) : Option Int :=
  let trimmed := ((text.toList.dropWhile isBlank).reverse.dropWhile isBlank).reverse
  let digits? (letters : List Char) : Option Int :=
    if letters.isEmpty || !letters.all Char.isDigit then none
    else some (letters.foldl (fun n d => n * 10 + (d.toNat - '0'.toNat)) (0 : Nat))
  match trimmed with
  | '-' :: rest => (digits? rest).map fun n => -n
  | '+' :: rest => digits? rest
  | rest => digits? rest

/-- The number that a text stands for, as a status or a count. -/
def count? (text : String) : Option Nat :=
  (number? text).bind fun n => if 0 ≤ n && n ≤ 2147483647 then some n.toNat else none

/-- Whether a character is a digit of a number to the base of eight. -/
def isOctal (c : Char) : Bool :=
  '0' ≤ c && c ≤ '7'

/-- The character that an escape stands for, of which the backslash is read already; one that is not
known leaves the backslash. -/
def escaped (input : List Char) : Char × List Char :=
  let digits := (input.take 3).takeWhile isOctal
  if !digits.isEmpty then
    let code := digits.foldl (fun n d => n * 8 + (d.toNat - '0'.toNat)) 0
    (Char.ofNat (code % 256), input.drop digits.length)
  else
    match input with
    | '\\' :: rest => ('\\', rest)
    | 'a' :: rest => ('\x07', rest)
    | 'b' :: rest => ('\x08', rest)
    | 'f' :: rest => ('\x0c', rest)
    | 'n' :: rest => ('\n', rest)
    | 'r' :: rest => ('\r', rest)
    | 't' :: rest => ('\t', rest)
    | 'v' :: rest => ('\x0b', rest)
    | rest => ('\\', rest)

/-- A text with its escapes replaced, and whether one of them ends all output; every round takes a
character. -/
def unescaped : Nat → List Char → List Char × Bool
  | 0, _ => ([], false)
  | _ + 1, [] => ([], false)
  | _ + 1, '\\' :: 'c' :: _ => ([], true)
  | fuel + 1, '\\' :: rest =>
    let octal :=
      match rest with
      | '0' :: c :: more => if isOctal c then c :: more else rest
      | _ => rest
    let (c, rest) := escaped octal
    let (others, ended) := unescaped fuel rest
    (c :: others, ended)
  | fuel + 1, c :: rest =>
    let (others, ended) := unescaped fuel rest
    (c :: others, ended)

/-- A text with its escapes replaced, and whether one of them ends all output. -/
def unescape (text : String) : List Char × Bool :=
  unescaped (text.toList.length + 1) text.toList

/-- Words with spaces between them, their escapes replaced, and an ending unless output is over. -/
def echoed (ending : List Char) : List String → List Char
  | [] => ending
  | [last] =>
    let (letters, ended) := unescape last
    if ended then letters else letters ++ ending
  | first :: rest =>
    let (letters, ended) := unescape first
    if ended then letters else letters ++ ' ' :: echoed ending rest

/-! ## Formatted output -/

/-- Output of a format so far. -/
structure Formatted where
  /-- The characters. -/
  letters : List Char := []
  /-- The arguments that are left. -/
  arguments : List String
  /-- The complaints. -/
  complaints : List String := []
  /-- Whether output has ended. -/
  ended : Bool := false

/-- The output with a directive of the format done. -/
def Formatted.directive (f : Formatted) (kind : Char) : Formatted :=
  let argument := f.arguments.headD ""
  let f := { f with arguments := f.arguments.drop 1 }
  if kind == 's' then { f with letters := f.letters ++ argument.toList }
  else if kind == 'b' then
    let (letters, ended) := unescape argument
    { f with letters := f.letters ++ letters, ended := ended }
  else if kind == 'c' then { f with letters := f.letters ++ [argument.toList.headD '\x00'] }
  else
    match if argument.isEmpty then some 0 else number? argument with
    | some n => { f with letters := f.letters ++ (toString n).toList }
    | none =>
      { f with
        letters := f.letters ++ ['0']
        complaints := f.complaints ++ [argument ++ ": expected numeric value"] }

/-- The output after one pass over a format; every round takes a character. -/
def Formatted.pass (f : Formatted) : Nat → List Char → Formatted
  | 0, _ => f
  | _ + 1, [] => f
  | fuel + 1, c :: rest =>
    if f.ended then f
    else if c == '\\' then
      let (c, rest) := escaped rest
      pass { f with letters := f.letters ++ [c] } fuel rest
    else
      match c, rest with
      | '%', '%' :: rest => pass { f with letters := f.letters ++ ['%'] } fuel rest
      | '%', kind :: rest => pass (f.directive kind) fuel rest
      | c, rest => pass { f with letters := f.letters ++ [c] } fuel rest

/-- The output of a format, which is used again while it takes arguments and some are left. -/
def Formatted.passes (format : List Char) : Nat → Formatted → Formatted
  | 0, f => f
  | fuel + 1, f =>
    let next := f.pass (format.length + 1) format
    if next.ended || next.arguments.isEmpty || next.arguments.length == f.arguments.length then next
    else passes format fuel next

/-! ## Tests -/

/-- Whether a condition holds; the fault of a malformed one is told. Every round takes a word. -/
def State.test (s : State) : Nat → List String → Except String Bool
  | 0, _ => .error "unexpected operator"
  | _ + 1, [] => .ok false
  | _ + 1, [word] => .ok (!word.isEmpty)
  | fuel + 1, words =>
    match words.span (· != "-o") with
    | (first :: firsts, _ :: rest) => do
      let left ← s.test fuel (first :: firsts)
      return (← s.test fuel rest) || left
    | _ =>
      match words.span (· != "-a") with
      | (first :: firsts, _ :: rest) => do
        let left ← s.test fuel (first :: firsts)
        return (← s.test fuel rest) && left
      | _ =>
        match words with
        | ["-n", word] => .ok (!word.isEmpty)
        | ["-z", word] => .ok word.isEmpty
        | ["-e", path] => .ok (s.find path).isOk
        | ["-d", path] => .ok (s.isDirectory path)
        | ["-f", path] => .ok ((s.find path).isOk && !s.isDirectory path)
        | ["-r", path] => .ok (s.find path).isOk
        | ["-w", path] => .ok (s.find path).isOk
        | ["-s", path] => .ok (s.isDirectory path || (s.contents path).toOption.any (!·.isEmpty))
        | ["-x", path] =>
          match s.find path with
          | .ok (.file _ executable) => .ok executable
          | .ok _ => .ok true
          | .error _ => .ok false
        | [left, operator, right] =>
          let compare (holds : Int → Int → Bool) : Except String Bool :=
            match number? left, number? right with
            | some a, some b => .ok (holds a b)
            | none, _ => .error ("Illegal number: " ++ left)
            | _, none => .error ("Illegal number: " ++ right)
          match operator with
          | "=" => .ok (left == right)
          | "!=" => .ok (left != right)
          | "-eq" => compare (· == ·)
          | "-ne" => compare (· != ·)
          | "-lt" => compare (· < ·)
          | "-le" => compare (· ≤ ·)
          | "-gt" => compare (· > ·)
          | "-ge" => compare (· ≥ ·)
          | _ =>
            if left == "!" then (s.test fuel [operator, right]).map not
            else .error (operator ++ ": unexpected operator")
        | "!" :: rest => (s.test fuel rest).map not
        | word :: _ => .error (word ++ ": unexpected operator")
        | [] => .ok false

/-! ## Files -/

/-- Words without the options before them. -/
def withoutOptions : List String → List String
  | "--" :: rest => rest
  | word :: rest =>
    if word != "-" && Text.beginsWith "-" word then withoutOptions rest else word :: rest
  | [] => []

/-- Writes the contents of files, or what can be read. -/
def State.cat (s : State) (paths : List String) : State :=
  let paths := if paths.isEmpty then ["-"] else paths
  paths.foldl
    (fun s path =>
      if path == "-" then s.write s.outlet s.input
      else
        match s.contents path with
        | .ok contents => s.write s.outlet contents
        | .error .isDirectory => s.fail 1 ("cat: " ++ path ++ ": Is a directory")
        | .error .notDirectory => s.fail 1 ("cat: " ++ path ++ ": Not a directory")
        | .error _ => s.fail 1 ("cat: " ++ path ++ ": No such file or directory"))
    { s with status := 0 }

/-- The last part of a path. -/
def lastPart (path : String) : String :=
  match Text.splitLast? '/' path.toList with
  | some (_, part) => String.ofList part
  | none => path

/-- Copies a file to a path or into a directory, for a tool of some name. -/
def State.copy (s : State) (tool source target : String) : State :=
  let cannotFind (fault : String) : State :=
    s.fail 1 (tool ++ ": cannot stat '" ++ source ++ "': " ++ fault)
  match s.contents source with
  | .error .isDirectory =>
    s.fail 1 (tool ++ ": -r not specified; omitting directory '" ++ source ++ "'")
  | .error .notDirectory => cannotFind "Not a directory"
  | .error _ => cannotFind "No such file or directory"
  | .ok contents =>
    let target := if s.isDirectory target then join target (lastPart source) else target
    if s.admits target then { s.put target contents with status := 0 }
    else
      s.fail 1
        (tool ++ ": cannot create regular file '" ++ target ++ "': No such file or directory")

/-- Copies a file, for a tool with some operands. -/
def State.copyAll (s : State) (tool : String) : List String → State
  | [source, target] => s.copy tool source target
  | operands =>
    let missing :=
      match operands with
      | [source] => ": missing destination file operand after '" ++ source ++ "'"
      | _ => ": missing file operand"
    s.fail 1 (tool ++ missing ++ "\nTry '" ++ tool ++ " --help' for more information.")

/-! ## Signals -/

/-- The number of a signal that is named or numbered. -/
def signal? (text : String) : Option Nat :=
  signalNumbers.lookup text <|> (count? text).filter fun n => n ≤ 15

/-- Sends a signal to a process; only the script itself is known. -/
def State.send (s : State) (place : String) (number : Nat) (process : String) : State :=
  if process == s.value "$" then
    if number == 0 then { s with status := 0 } else { s with ending := some (.signal number) }
  else if (number? process).isSome then s.fail 1 (place ++ "kill: No such process\n")
  else s.fail 2 (place ++ "kill: Illegal number: " ++ process)

/-- Sends a signal as the words of a call tell. -/
def State.kill (s : State) (place : String) : List String → State
  | [process] => s.send place 15 process
  | ["-s", signal, process] =>
    match signal? signal with
    | some number => s.send place number process
    | none => s.fail 2 (place ++ "kill: invalid signal number or name: " ++ signal)
  | [option, process] =>
    match signal? (String.ofList (option.toList.drop 1)) with
    | some number => s.send place number process
    | none => s.fail 2 (place ++ "kill: Illegal option " ++ String.ofList (option.toList.take 2))
  | _ => { s with status := 2 }

/-! ## Calls -/

/-- The tools that are a part of the shell in such a way that their failure ends a script. -/
def isEssential (name : String) : Bool :=
  [":", "break", "continue", "exec", "exit", "export", "readonly", "return", "set", "shift",
   "unset"].contains name

/-- Takes options and arguments for the script itself. -/
def State.configure (s : State) : List String → State
  | [] => s
  | "--" :: rest => { s with arguments := rest }
  | word :: rest =>
    if Text.beginsWith "-" word then
      State.configure (if word.toList.contains 'e' then { s with strict := true } else s) rest
    else if Text.beginsWith "+" word then
      State.configure (if word.toList.contains 'e' then { s with strict := false } else s) rest
    else { s with arguments := word :: rest }

/-- Sets the parameters that words of the form of a name and a value tell. -/
def State.assign (s : State) (words : List String) : State :=
  words.foldl
    (fun s word =>
      match Text.splitFirst? '=' word.toList with
      | some (name, value) =>
        { s with bindings := (String.ofList name, String.ofList value) :: s.bindings }
      | none => s)
    s

/-- Calls a tool of the shell that has to do with the script itself. -/
def State.essential (s : State) (place name : String) (arguments : List String) : State :=
  let done := { s with status := 0 }
  let counted (usual : Nat) (act : Nat → State) : State :=
    match arguments.head? with
    | none => act usual
    | some text =>
      match count? text with
      | some n => act n
      | none => (s.complain (place ++ name ++ ": Illegal number: " ++ text)).finish 2
  match name with
  | "exit" => counted s.status fun n => s.finish (n % 256)
  | "return" => counted s.status fun n => s.finish (n % 256)
  | "shift" => counted 1 fun n =>
    if s.arguments.length < n then
      (s.complain (place ++ "shift: can't shift that many")).finish 2
    else { done with arguments := s.arguments.drop n }
  | "set" => done.configure arguments
  | "export" => done.assign arguments
  | "readonly" => done.assign arguments
  | "unset" => { done with bindings := s.bindings.filter fun b => !arguments.contains b.1 }
  | _ => done

/-- Calls a tool. -/
def State.call (s : State) (place name : String) (arguments : List String) : State :=
  let done := { s with status := 0 }
  match name, arguments with
  | "true", _ => done
  | "sleep", _ => done
  | "wait", _ => done
  | "false", _ => { s with status := 1 }
  | "echo", "-n" :: words => done.say (String.ofList (echoed [] words))
  | "echo", words => done.say (String.ofList (echoed ['\n'] words))
  | "printf", format :: words =>
    let f := Formatted.passes format.toList (words.length + 1) { arguments := words }
    let told := f.complaints.foldl (fun s text => s.fail 1 (place ++ "printf: " ++ text)) done
    told.say (String.ofList f.letters)
  | "cat", words => s.cat (withoutOptions words)
  | "cp", words => s.copyAll "cp" (withoutOptions words)
  | "mv", words => s.copyAll "mv" (withoutOptions words)
  | "kill", words => s.kill place words
  | _, _ =>
    if name == "test" || name == "[" then
      let words := if name == "[" then arguments.dropLast else arguments
      if name == "[" && arguments.getLast? != some "]" then s.fail 2 (place ++ "[: missing ]")
      else
        match s.test (words.length + 2) words with
        | .ok holds => { s with status := if holds then 0 else 1 }
        | .error fault => s.fail 2 (place ++ name ++ ": " ++ fault)
    else if name.toList.contains '/' && (s.find name).isOk then
      s.fail 126 (place ++ name ++ ": Permission denied")
    else s.fail 127 (place ++ name ++ ": not found")

end ApiModel.Files.Script
