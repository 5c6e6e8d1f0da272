import RigScript.Compile.Lower
import RigScript.Program.Parser

/-!
# Converting constructs

A script is compiled as a unit: when it fails, the nodes created for it are deleted again in
reverse order, if the options say so. A batch goes through the constructs that the host lists.
A construct without incoming connections is skipped. Any other one is compiled and then deleted.
The first failure ends the batch, and the selection is emptied in any case.

## Main definitions

* `RigScript.rollBack`: deleting the nodes of a failed unit
* `RigScript.compileScript`: compiling a text on behalf of a construct
* `RigScript.convertConstruct`: compiling the script that a construct holds
* `RigScript.convertAll`: the batch
-/

namespace RigScript

/-- A dialogue that may fail. -/
abbrev Attempt (α : Type) : Type :=
  ExceptT ConvertError Dialogue α

/-- Makes a request; a refusal is a failure. -/
def Attempt.ask (r : Request) : Attempt r.Reply :=
  ExceptT.mk (Dialogue.ask r fun
    | .ok reply => .done (.ok reply)
    | .error e => .done (.error (.graph e)))

/-- Deletes nodes in order until one is refused. -/
def deleteNodes : List String → Dialogue Unit
  | [] => return ()
  | name :: names => do
    match ← Dialogue.send (.deleteNode name) with
    | .ok _ => deleteNodes names
    | .error _ => return ()

/-- Handles the nodes of a failed unit, the last one first. -/
def rollBack (policy : Rollback) (created : List String) : Dialogue Unit :=
  match policy with
  | .keepNodes => return ()
  | .failedConstruct => deleteNodes created.reverse

/-- Compiles a program and returns the nodes created. After a failure these are handled as the
options say, and the failure is reported. -/
def compileProgram (c : Context) (p : Program) : Attempt (List String) :=
  ExceptT.mk do
    let (outcome, created) ← (Build.program c p).dialogue
    match outcome with
    | .ok _ => return .ok created
    | .error e => do
      rollBack c.options.rollback created
      return .error e

/-- Compiles a text and returns the nodes created. A line break is added to end a comment on the
last line. -/
def compileNodes (c : Context) (script : String) : Attempt (List String) :=
  match Program.parse (script ++ "\n") with
  | .error e => throw (.parse e)
  | .ok p => compileProgram c p

/-- Compiles a text on behalf of a construct and returns the number of nodes created. -/
def compileScript (c : Context) (script : String) : Attempt Nat := do
  let created ← compileNodes c script
  return created.length

/-- The script that a construct holds. -/
def readScript (c : Context) : Attempt String := do
  let plug : Plug := ⟨c.identity, c.options.scriptAttribute⟩
  let value : Value ← Attempt.ask (.getAttribute plug)
  match value with
  | .string s => return s
  | other => throw (.attributeType plug other.kind "string")

/-- Compiles the script that a construct holds and returns the nodes created. -/
def constructNodes (c : Context) : Attempt (List String) := do
  let script ← readScript c
  compileNodes c script

/-- Compiles the script that a construct holds and returns the number of nodes created. The
construct stays. -/
def convertConstruct (c : Context) : Attempt Nat := do
  let created ← constructNodes c
  return created.length

/-- Deletes a compiled construct. When the host refuses, the nodes created for it are handled as
the options say. -/
def commit (c : Context) (created : List String) : Attempt Unit :=
  ExceptT.mk do
    match ← Dialogue.send (.deleteNode c.identity) with
    | .ok _ => return .ok ()
    | .error e => do
      rollBack c.options.rollback created
      return .error (.graph e)

/-- Compiles a construct, deletes it, and returns the number of nodes created. -/
def replaceConstruct (c : Context) : Attempt Nat := do
  let created ← constructNodes c
  commit c created
  return created.length

/-- Names the construct in a failure. -/
def Attempt.within {α : Type} (construct : String) (a : Attempt α) : Attempt α :=
  ExceptT.mk do
    match ← a.run with
    | .ok x => return .ok x
    | .error e => return .error (.conversion construct e)

/-- The outcome of a batch. -/
structure Report where
  /-- The constructs compiled and deleted, in order. -/
  converted : List String := []
  /-- The constructs left alone, in order. -/
  skipped : List String := []
  /-- The number of nodes created. -/
  nodesCreated : Nat := 0
deriving DecidableEq, Repr

/-- Whether nothing is connected, given the answer of a host. -/
def isIdle : Option (List Plug) → Bool
  | none => true
  | some sources => sources.isEmpty

/-- Goes through constructs in order, adding to a report. -/
def convertEach (o : Options) : List String → Report → Attempt Report
  | [], report => return report
  | name :: names, report => do
    let incoming : Option (List Plug) ← Attempt.ask (.listIncoming ⟨name, o.input⟩)
    if isIdle incoming then
      convertEach o names { report with skipped := report.skipped ++ [name] }
    else
      let count ← (replaceConstruct ⟨name, o⟩).within name
      convertEach o names
        { report with
          converted := report.converted ++ [name]
          nodesCreated := report.nodesCreated + count }

/-- Converts the constructs that the host lists. -/
def convertListed (o : Options) : Attempt Report := do
  let names : List String ← Attempt.ask (.listConstructs o.constructKind)
  convertEach o names {}

/-- Converts every live construct of a scene and empties the selection. A failure of the batch
counts before a failure to empty the selection. -/
def convertAll (o : Options) : Attempt Report :=
  ExceptT.mk do
    let outcome ← (convertListed o).run
    let cleared ← Dialogue.send .clearSelection
    match outcome, cleared with
    | .error e, _ => return .error e
    | .ok _, .error e => return .error (.graph e)
    | .ok report, .ok _ => return .ok report

end RigScript
