import TableLexer.Command.Host
import TableLexer.Proofs.Fallible

/-! Commands in a world held as a value. A command is carried out step by step, and a failure keeps
what was printed before it. -/

set_option autoImplicit false

namespace TableLexer

namespace FileTree

variable {tree : FileTree} {path name : String} {content : List UInt8}

theorem canOpen_of_read (found : tree.read path = .ok content) : tree.canOpen path = .ok () := by
  rw [read, bind_eq_ok_iff] at found
  obtain ⟨target, resolved, found⟩ := found
  rw [canOpen, resolved]
  cases target with
  | vacant => cases found
  | directory => rfl
  | file => rfl

theorem read_name (lone : Path.names name = [name]) (proper : name ∉ ["", ".", ".."])
    (short : name.utf8ByteSize ≤ maxName) (relative : name.startsWith "/" = false)
    (found : tree.find? 0 name = some (.file content)) : tree.read name = .ok content := by
  have ⟨nonempty, elsewhere, within⟩ : name ≠ "" ∧ name ≠ "." ∧ name ≠ ".." := by
    simpa using proper
  have fits : ¬ maxPath < name.utf8ByteSize := by
    unfold maxName at short
    unfold maxPath
    omega
  have last : Path.fileName name = name := by
    rw [Path.fileName, lone]
    rfl
  have approached : tree.approach name = .ok (.inside []) := by
    simp [approach, lone, nonempty, relative, fits]
  have followed : tree.follow (.inside []) name = .ok (.file 0 name content) := by
    simp [follow, nonempty, elsewhere, within, Nat.not_lt.mpr short, found]
  simp [read, resolve, approached, last, followed]

end FileTree

namespace World

section

variable (world : World) (name : String)

@[simp] theorem run_arguments :
    (Host.arguments : StateM World (List String)).run world = (world.arguments, world) := rfl

@[simp] theorem run_setting :
    (Host.setting? name : StateM World (Option String)).run world =
      (world.settings.lookup name, world) := rfl

@[simp] theorem run_readFile :
    (Host.readFile name : StateM World (Except FileError (List UInt8))).run world =
      (world.files.read name, world) := rfl

@[simp] theorem run_readPieces (size : Nat) :
    (Host.readPieces name size : StateM World (Except FileError (List (List UInt8)))).run world =
      ((world.files.read name).map (world.reading.pieces size), world) := rfl

@[simp] theorem run_openFile :
    (Host.openFile name : StateM World (Except FileError Unit)).run world =
      (world.files.canOpen name, world) := rfl

@[simp] theorem run_milliseconds :
    (Host.milliseconds : StateM World Nat).run world = (0, world) := rfl

end

end World

theorem Failure.report_within (context cause : String) :
    ((plain cause).within context).report =
      "Error: " ++ context ++ "\n\nCaused by:\n    " ++ cause ++ "\n" := by
  have lines : ((plain cause).within context).report =
      String.join ["Error: " ++ context ++ "\n", "\n", "Caused by:\n", "    " ++ cause ++ "\n"] :=
    rfl
  have between : "\n\nCaused by:\n    " = "\n" ++ "\n" ++ "Caused by:\n" ++ "    " := by decide
  rw [lines, between]
  simp only [String.join_cons, String.join_nil, String.append_empty, ← String.append_assoc]

namespace Command

variable {α β : Type}

/-- What a command comes to in a world, and the world that it leaves. -/
def carryOut (command : Command (StateM World) α) (world : World) : Except Failure α × World :=
  (ExceptT.run command).run world

def runIn (command : Command (StateM World) Unit) (world : World) : UInt32 × World :=
  StateT.run (Command.run command) world

def exitCode : Except Failure Unit → UInt32
  | .ok () => 0
  | .error _ => 1

def complaint : Except Failure Unit → String
  | .ok () => ""
  | .error failure => failure.report

variable {world after : World}

@[simp] theorem carryOut_pure (value : α) (world : World) :
    carryOut (pure value) world = (.ok value, world) := rfl

theorem carryOut_bind {first : Command (StateM World) α} {value : α}
    (came : first.carryOut world = (.ok value, after)) (next : α → Command (StateM World) β) :
    (first >>= next).carryOut world = (next value).carryOut after := by
  have ran : (ExceptT.run first).run world = (.ok value, after) := came
  rw [carryOut, ExceptT.run_bind, StateT.run_bind, ran]
  rfl

theorem carryOut_bind_failed {first : Command (StateM World) α} {failure : Failure}
    (came : first.carryOut world = (.error failure, after))
    (next : α → Command (StateM World) β) :
    (first >>= next).carryOut world = (.error failure, after) := by
  have ran : (ExceptT.run first).run world = (.error failure, after) := came
  rw [carryOut, ExceptT.run_bind, StateT.run_bind, ran]
  rfl

/-- A question to the world, with what is done with its answer. -/
theorem carryOut_ask (question : StateM World α) (next : α → Command (StateM World) β)
    (world : World) :
    (liftM question >>= next : Command (StateM World) β).carryOut world =
      (next (question.run world).1).carryOut (question.run world).2 := by
  rfl

theorem carryOut_orFail {ε : Type} (failure : ε → Failure) (value : α) (world : World) :
    (orFail failure (.ok value) : Command (StateM World) α).carryOut world = (.ok value, world) :=
  rfl

theorem carryOut_orFail_error {ε : Type} (failure : ε → Failure) (error : ε) (world : World) :
    (orFail failure (.error error) : Command (StateM World) α).carryOut world =
      (.error (failure error), world) :=
  rfl

theorem carryOut_printLine (line : String) (world : World) :
    (printLine line : Command (StateM World) Unit).carryOut world =
      (.ok (), { world with out := world.out ++ (line ++ "\n") }) :=
  rfl

theorem carryOut_printNote (line : String) (world : World) :
    (printNote line : Command (StateM World) Unit).carryOut world =
      (.ok (), { world with err := world.err ++ (line ++ "\n") }) :=
  rfl

theorem carryOut_numericSetting (name : String) (bound standard : Nat) (world : World) :
    (numericSetting name bound standard : Command (StateM World) Nat).carryOut world =
      (.ok (((world.settings.lookup name).bind (readUnsigned? bound)).getD standard), world) :=
  rfl

theorem carryOut_printLines (lines : List String) (world : World) :
    (lines.toArray.forM printLine : Command (StateM World) Unit).carryOut world =
      (.ok (), { world with out := world.out ++ String.join (lines.map (· ++ "\n")) }) := by
  have same : (lines.toArray.forM printLine : Command (StateM World) Unit) =
      lines.forM printLine := List.forM_toArray lines printLine
  rw [same]
  clear same
  induction lines generalizing world with
  | nil => simp [List.forM]
  | cons line rest ih =>
    change (printLine line >>= fun _ => rest.forM printLine).carryOut world = _
    rw [carryOut_bind (carryOut_printLine line world), ih]
    simp [String.append_assoc]

/-- A command that fails reports why, behind whatever else it has to say. -/
theorem runIn_eq {command : Command (StateM World) Unit} {outcome : Except Failure Unit}
    (came : command.carryOut world = (outcome, after)) :
    command.runIn world =
      (exitCode outcome, { after with err := after.err ++ complaint outcome }) := by
  have ran : (ExceptT.run command).run world = (outcome, after) := came
  rw [runIn, Command.run, StateT.run_bind, ran]
  cases outcome with
  | ok _ =>
    rw [complaint, String.append_empty]
    rfl
  | error failure => rfl

end Command

end TableLexer
