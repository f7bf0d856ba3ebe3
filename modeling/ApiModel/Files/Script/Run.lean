import ApiModel.Files.Script.Read
import ApiModel.Files.Script.Tool

/-!
# Running scripts

What the commands of a script do to its state. A loop may not end, so the rounds of a run are
limited.
-/

namespace ApiModel.Files.Script

/-! ## Redirections -/

/-- The state with a descriptor that leads to an outlet. -/
def State.lead (s : State) (descriptor : Nat) (outlet : Outlet) : State :=
  match descriptor with
  | 1 => { s with outlet := outlet }
  | 2 => { s with complaints := outlet }
  | _ => s

/-- Opens a file for output. -/
def State.opened (s : State) (path : String) (keep : Bool) : Except String (State × Outlet) :=
  if path == "/dev/null" then .ok (s, .output)
  else if path == "/dev/stdout" then .ok (s, s.outlet)
  else if path == "/dev/stderr" then .ok (s, s.complaints)
  else if s.admits path then
    let contents := if keep then (s.contents path).toOption.getD [] else []
    .ok (s.put path contents, .file path)
  else if s.isDirectory path then .error ("cannot create " ++ path ++ ": Is a directory")
  else .error ("cannot create " ++ path ++ ": Directory nonexistent")

/-- The state with a redirection made, or the fault of it. -/
def State.redirect (s : State) (r : Redirection) : Except String State :=
  let target := s.text r.target
  match r.direction with
  | .create => (s.opened target false).map fun (s, outlet) => s.lead r.descriptor outlet
  | .append => (s.opened target true).map fun (s, outlet) => s.lead r.descriptor outlet
  | .read =>
    match s.contents target with
    | .ok contents => .ok { s with input := contents }
    | .error _ => .error ("cannot open " ++ target ++ ": No such file")
  | .here => .ok { s with input := Text.gather target }
  | .follow =>
    match target with
    | "1" => .ok (s.lead r.descriptor s.outlet)
    | "2" => .ok (s.lead r.descriptor s.complaints)
    | "-" => .ok (s.lead r.descriptor .output)
    | _ => .ok s

/-- The state with redirections made in turn, or the first fault with the state before it. -/
def State.redirectAll (s : State) : List Redirection → Except (String × State) State
  | [] => .ok s
  | first :: rest =>
    match s.redirect first with
    | .ok next => next.redirectAll rest
    | .error fault => .error (fault, s)

/-- The state with descriptors that lead where those of another one do. -/
def State.leadAs (s before : State) : State :=
  { s with outlet := before.outlet, complaints := before.complaints, input := before.input }

/-- The state with the values of parameters set. -/
def State.bind (s : State) (bindings : List (String × Word)) : State :=
  bindings.foldl (fun s (name, word) => { s with bindings := (name, s.text word) :: s.bindings }) s

/-! ## Commands -/

/-- The state with what another one, which began with it, has done to files and reports. -/
def State.adopt (s inner : State) : State :=
  { s with
    root := inner.root
    written := inner.written
    report := inner.report
    passed := inner.passed
    status := inner.status
    ending :=
      match inner.ending with
      | some (.signal number) => some (.signal number)
      | _ => none }

/-- Ends a script that is strict after a failure, unless the failure was asked for. -/
def State.checked (s : State) (tested : Bool) : State :=
  if s.strict && !tested && s.status != 0 && s.ending.isNone then s.finish s.status else s

/-- Leaves the innermost of some loops, if there is one. -/
def State.leave (s : State) (loops : Nat) (leaving : Leaving) : State :=
  { s with status := 0, leaving := if loops == 0 then none else some leaving }

/-- The state behind a round of a loop. -/
def State.afterRound (s : State) : State :=
  match s.leaving with
  | some .round => { s with leaving := none }
  | _ => s

/-- The state behind a loop. -/
def State.afterLoop (s : State) : State :=
  { s with leaving := none }

/-- Does a simple command. Loops that are open decide whether one can be left. -/
def State.simple (s : State) (loops line : Nat) (bindings : List (String × Word))
    (words : List Word) (redirections : List Redirection) : State :=
  let place := s.place line
  match words.flatMap s.texts with
  | [] =>
    match s.redirectAll redirections with
    | .ok next => { (next.leadAs s).bind bindings with status := 0 }
    | .error (fault, before) => (before.leadAs s).fail 2 (place ++ fault)
  | name :: arguments =>
    match s.redirectAll redirections with
    | .error (fault, before) =>
      let failed := (before.leadAs s).fail 2 (place ++ fault)
      if isEssential name then failed.finish 2 else failed
    | .ok next =>
      if name == "exec" then
        match arguments with
        | [] => { next.bind bindings with status := 0 }
        | tool :: arguments =>
          let after := next.call place tool arguments
          if after.ending.isSome then after else after.finish after.status
      else if name == "break" then s.leave loops .loop
      else if name == "continue" then s.leave loops .round
      else if isEssential name then ((next.bind bindings).essential place name arguments).leadAs s
      else { (next.bind bindings).call place name arguments with bindings := s.bindings }.leadAs s

mutual

/-- Does a command, unless the script has ended. -/
def State.run : Nat → Nat → Bool → State → Command → State
  | 0, _, _, s, _ => s
  | fuel + 1, loops, tested, s, command =>
    if s.stopped then s
    else
      match command with
      | .simple line bindings words redirections =>
        (s.simple loops line bindings words redirections).checked tested
      | .loop name words body =>
        let texts := words.flatMap s.texts
        let start := if texts.isEmpty then { s with status := 0 } else s
        (State.runEach fuel (loops + 1) tested name body start texts).afterLoop
      | .repeated whileTrue condition body =>
        (State.runWhile fuel (loops + 1) tested whileTrue condition body 0 s).afterLoop
      | .choice subject branches =>
        State.runFirst fuel loops tested s (s.text subject) branches
      | .branch condition body otherwise =>
        let decided := State.runAll fuel loops true s condition
        if decided.stopped then decided
        else if decided.status == 0 then State.runAll fuel loops tested decided body
        else if otherwise.isEmpty then { decided with status := 0 }
        else State.runAll fuel loops tested decided otherwise
      | .both first second =>
        let s := State.run fuel loops true s first
        if s.status == 0 then State.run fuel loops tested s second else s
      | .either first second =>
        let s := State.run fuel loops true s first
        if s.status == 0 then s else State.run fuel loops tested s second
      | .negated command =>
        let s := State.run fuel loops true s command
        if s.stopped then s else { s with status := if s.status == 0 then 1 else 0 }
      | .piped first second =>
        let left := State.run fuel loops true { s with outlet := .next, passed := [] } first
        let right := State.run fuel loops true
          { s.adopt left with input := left.passed, passed := s.passed, status := s.status } second
        (s.adopt right).checked tested
      | .group true body => (s.adopt (State.runAll fuel loops tested s body)).checked tested
      | .group false body => State.runAll fuel loops tested s body
      | .redirected line command redirections =>
        match s.redirectAll redirections with
        | .ok next => (State.run fuel loops tested next command).leadAs s
        | .error (fault, before) => (before.leadAs s).fail 2 (s.place line ++ fault)

/-- Does commands in order. -/
def State.runAll : Nat → Nat → Bool → State → List Command → State
  | 0, _, _, s, _ => s
  | _ + 1, _, _, s, [] => s
  | fuel + 1, loops, tested, s, command :: rest =>
    State.runAll fuel loops tested (State.run fuel loops tested s command) rest

/-- Does the body of a loop for each of some texts. -/
def State.runEach : Nat → Nat → Bool → String → List Command → State →
    List String → State
  | 0, _, _, _, _, s, _ => s
  | _ + 1, _, _, _, _, s, [] => s
  | fuel + 1, loops, tested, name, body, s, text :: rest =>
    if s.stopped then s
    else
      let bound := { s with bindings := (name, text) :: s.bindings }
      State.runEach fuel loops tested name body
        (State.runAll fuel loops tested bound body).afterRound rest

/-- Does the body of a loop while its condition holds, or until it does; the status is that of the
last round. -/
def State.runWhile : Nat → Nat → Bool → Bool → List Command → List Command → Nat →
    State → State
  | 0, _, _, _, _, _, _, s => s
  | fuel + 1, loops, tested, whileTrue, condition, body, status, s =>
    let decided := State.runAll fuel loops true s condition
    if decided.stopped then decided
    else if (decided.status == 0) == whileTrue then
      let after := (State.runAll fuel loops tested decided body).afterRound
      if after.stopped then after
      else State.runWhile fuel loops tested whileTrue condition body after.status after
    else { decided with status := status }

/-- Does the commands of the first branch that matches; where there are none, the choice
succeeds. -/
def State.runFirst : Nat → Nat → Bool → State → String →
    List (List Word × List Command) → State
  | 0, _, _, s, _, _ => s
  | _ + 1, _, _, s, _, [] => { s with status := 0 }
  | fuel + 1, loops, tested, s, subject, (patterns, body) :: rest =>
    if patterns.any (s.matches subject) then
      if body.isEmpty then { s with status := 0 } else State.runAll fuel loops tested s body
    else State.runFirst fuel loops tested s subject rest

end

/-! ## Whole scripts -/

/-- How many rounds a run may take. -/
def maxRounds : Nat := 100000

/-- Does the lines that some tokens make up; every round takes a token. A line that is no command
ends the script. -/
def State.runLines : Nat → State → List Token → State
  | 0, s, _ => s
  | fuel + 1, s, input =>
    match skipLines input with
    | [] => s
    | rest =>
      match nextLine rest with
      | none => s.finish 2
      | some (commands, rest) =>
        let s := State.runAll maxRounds 0 false s commands
        if s.ending.isSome then s else s.runLines fuel rest

/-- The state behind a script. -/
def State.runScript (s : State) (script : Bytes) : State :=
  let tokens := tokensOf script
  s.runLines (tokens.length + 1) tokens

end ApiModel.Files.Script
