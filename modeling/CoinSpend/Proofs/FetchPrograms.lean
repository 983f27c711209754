import CoinSpend.Proofs.Execution
import CoinSpend.Proofs.InBounds
import CoinSpend.Proofs.SignatureBudget

/-!
# Stack opcodes as programs of fetches

Whatever moves or copies elements can be done by fetching them from a depth, one after the
other, and by dropping.  A program of such moves is evaluated by carrying out one move after the
other, as long as there is room, and it fails where the first of them does.  So an opcode and
its program have the same outcome on every stack, also where the stack is too short for them.
-/

namespace CoinSpend

/-! ## Moves -/

def StackOperation.opcode : StackOperation → Opcode
  | .drop2 => ⟨0x6d⟩
  | .dup2 => ⟨0x6e⟩
  | .dup3 => ⟨0x6f⟩
  | .over2 => ⟨0x70⟩
  | .rotate2 => ⟨0x71⟩
  | .swap2 => ⟨0x72⟩
  | .dupIfTrue => ⟨0x73⟩
  | .depth => ⟨0x74⟩
  | .drop => ⟨0x75⟩
  | .dup => ⟨0x76⟩
  | .nip => ⟨0x77⟩
  | .over => ⟨0x78⟩
  | .pick => ⟨0x79⟩
  | .roll => ⟨0x7a⟩
  | .rotate => ⟨0x7b⟩
  | .swap => ⟨0x7c⟩
  | .tuck => ⟨0x7d⟩
  | .size => ⟨0x82⟩

/-- An instruction that puts a number up to 16 on the stack, or moves or copies elements. -/
inductive Move where
  | number (value : Fin 17)
  | stack (operation : StackOperation)

namespace Move

def instruction : Move → Instruction
  | .number value => Script.numberOf (value : Nat)
  | .stack operation => .op operation.opcode

def apply (requireMinimal : Bool) (move : Move) (stack : Stack) : Except ScriptError Stack :=
  match move with
  | .number value => .ok (ScriptNumber.encode (value : Nat) :: stack)
  | .stack operation => Stack.apply requireMinimal operation stack

def applyAll (requireMinimal : Bool) (moves : List Move) (stack : Stack) :
    Except ScriptError Stack :=
  moves.foldlM (fun stack move => move.apply requireMinimal stack) stack

/-- How many operations a move counts. -/
def cost : Move → Nat
  | .number _ => 0
  | .stack _ => 1

/-- By how many elements a move lets the stack grow at most. -/
def growth : Move → Nat
  | .number _ => 1
  | .stack operation =>
      match operation with
      | .dup3 => 3
      | .dup2 | .over2 => 2
      | .dupIfTrue | .depth | .dup | .over | .tuck | .size => 1
      | _ => 0

def script (moves : List Move) : Script :=
  .ofInstructions (moves.map instruction)

variable {requireMinimal : Bool} {stack next : Stack}

theorem ofOpcode_opcode (operation : StackOperation) :
    Operation.ofOpcode operation.opcode = .stack operation := by
  cases operation <;> rfl

theorem isCounted_opcode (operation : StackOperation) :
    operation.opcode.isCounted = true ∧ operation.opcode.isDisabled = false := by
  cases operation <;> decide

theorem wellFormed_instruction (move : Move) : move.instruction.WellFormed := by
  cases move with
  | number value => exact (Script.pushed?_numberOf (Nat.le_of_lt_succ value.isLt) false).1
  | stack operation => cases operation <;> rfl

theorem length_fetchAt_le {moved : Bool}
    (fetched : Stack.fetchAt requireMinimal moved stack = .ok next) :
    next.length ≤ stack.length := by
  match stack with
  | [] | [_] => cases fetched
  | top :: second :: rest =>
      obtain ⟨number, -, fetched⟩ := Except.bind_eq_ok_iff.mp fetched
      obtain ⟨depth, -, fetched⟩ := Except.bind_eq_ok_iff.mp fetched
      unfold Stack.fetch at fetched
      split at fetched
      · cases fetched
        cases moved with
        | true => exact Nat.succ_le_succ (List.length_eraseIdx_le _ _)
        | false => exact Nat.le_refl _
      · cases fetched

theorem length_apply_le {move : Move} (applied : move.apply requireMinimal stack = .ok next) :
    next.length ≤ stack.length + move.growth := by
  cases move with
  | number value =>
      cases applied
      exact Nat.le_refl _
  | stack operation =>
      change Stack.apply requireMinimal operation stack = .ok next at applied
      unfold Stack.apply at applied
      split at applied
      case h_13 => exact length_fetchAt_le applied
      case h_14 => exact length_fetchAt_le applied
      case h_7 top rest =>
        cases applied
        split
        · exact Nat.le_refl _
        · exact Nat.le_succ _
      all_goals
        cases applied
        try simp only [growth, List.length_cons]; omega

/-! ## Programs -/

variable {context : Context} {index : Nat} {state : State}

theorem step_move {move : Move} (executing : state.executing = true)
    (few : state.operations + move.cost ≤ Limits.maxOperations)
    (room : state.stack.length + move.growth + state.alt.length ≤ Limits.maxStackSize) :
    context.step index move.instruction state =
      Outcome.ofExcept ((move.apply context.requireMinimal state.stack).map fun stack =>
        { state with stack := stack, operations := state.operations + move.cost }) := by
  cases move with
  | number value =>
      obtain ⟨wellFormed, allowed, pushed⟩ :=
        Script.pushed?_numberOf (Nat.le_of_lt_succ value.isLt) context.requireMinimal
      exact Context.step_of_pushed? wellFormed pushed allowed executing
        (by simp only [growth] at room; omega)
  | stack operation =>
      obtain ⟨counted, enabled⟩ := isCounted_opcode operation
      rw [instruction, Context.step_op counted enabled executing few, ofOpcode_opcode]
      change (Outcome.ofExcept ((apply context.requireMinimal (.stack operation)
        state.stack).map _) >>= _) = _
      cases applied : apply context.requireMinimal (.stack operation) state.stack with
      | error error => rfl
      | ok next =>
          have fits : next.length + state.alt.length ≤ Limits.maxStackSize := by
            have longer := length_apply_le applied
            omega
          exact Outcome.require_bind_of_met (decide_eq_true fits) _ _

theorem applyAll_cons (move : Move) (moves : List Move) :
    applyAll requireMinimal (move :: moves) stack =
      move.apply requireMinimal stack >>= applyAll requireMinimal moves :=
  List.foldlM_cons

/-- A program of moves carries out one after the other, and fails where the first of them does. -/
theorem steps_moves {moves : List Move} (executing : state.executing = true)
    (few : state.operations + (moves.map cost).sum ≤ Limits.maxOperations)
    (room : state.stack.length + (moves.map growth).sum + state.alt.length ≤
      Limits.maxStackSize) :
    context.steps index (moves.map instruction) state =
      Outcome.ofExcept ((applyAll context.requireMinimal moves state.stack).map fun stack =>
        { state with stack := stack, operations := state.operations + (moves.map cost).sum }) := by
  induction moves generalizing index state with
  | nil => rfl
  | cons move rest ih =>
      rw [List.map_cons, List.sum_cons] at few room
      rw [List.map_cons, Context.steps, step_move executing (by omega) (by omega), applyAll_cons,
        List.map_cons, List.sum_cons]
      cases applied : move.apply context.requireMinimal state.stack with
      | error error => rfl
      | ok next =>
          have longer := length_apply_le applied
          rw [← Nat.add_assoc]
          refine ih executing ?_ ?_
          · dsimp only
            omega
          · dsimp only
            omega

/-- The script of a short program of moves does what the moves do, and nothing else. -/
theorem evaluate_script {moves : List Move} {flags : Flags} {checker : Checker}
    {version : SignatureVersion} (short : (script moves).length ≤ Limits.maxScriptSize)
    (few : (moves.map cost).sum ≤ Limits.maxOperations)
    (room : stack.length + (moves.map growth).sum ≤ Limits.maxStackSize) :
    Context.evaluate ⟨script moves, flags, checker, version⟩ stack =
      Outcome.ofExcept (applyAll (flags.has .minimalData) moves stack) := by
  have wellFormed : ∀ written ∈ moves.map instruction, written.WellFormed := by
    intro written member
    obtain ⟨move, -, rfl⟩ := List.mem_map.mp member
    exact move.wellFormed_instruction
  have whole : (script moves).brokenEnd = [] := Script.brokenEnd_ofInstructions wellFormed
  have instructions : (script moves).instructions = moves.map instruction :=
    Script.instructions_ofInstructions wellFormed
  have counts : (State.ofStack stack).operations + (moves.map cost).sum ≤ Limits.maxOperations := by
    rwa [State.ofStack, Nat.zero_add]
  rw [Context.evaluate_of_whole short whole, instructions, steps_moves rfl counts room]
  change (Outcome.ofExcept ((applyAll (flags.has .minimalData) moves stack).map _) >>= _) = _
  cases applyAll (flags.has .minimalData) moves stack <;> rfl

/-! ## Fetching -/

def fetch (moved : Bool) (depth : Fin 17) : List Move :=
  [.number depth, .stack (if moved then .roll else .pick)]

/-- A depth that was put on top is taken away before anything is fetched from there. -/
theorem fetchAt_encode (requireMinimal moved : Bool) (depth : Fin 17) (stack : Stack) :
    Stack.fetchAt requireMinimal moved (ScriptNumber.encode (depth : Nat) :: stack) =
      Stack.fetch moved stack depth := by
  match stack with
  | [] => rfl
  | first :: rest =>
      have read := Stack.operand_encode_of_le requireMinimal (Nat.le_of_lt_succ depth.isLt)
      rw [Stack.fetchAt, read]
      change (Stack.depthOf (first :: rest) ((depth : Nat) : Int) >>= _) = _
      by_cases deep : (depth : Nat) < (first :: rest).length
      · rw [Stack.depthOf, if_pos (by omega)]
        rfl
      · rw [Stack.depthOf, if_neg (by omega), Stack.fetch,
          List.getElem?_eq_none (Nat.not_lt.mp deep)]
        rfl

theorem applyAll_fetch (moved : Bool) (depth : Fin 17) :
    applyAll requireMinimal (fetch moved depth) = fun stack => Stack.fetch moved stack depth := by
  funext stack
  rw [← fetchAt_encode requireMinimal]
  cases moved with
  | true => exact bind_pure (Stack.fetchAt requireMinimal true _)
  | false => exact bind_pure (Stack.fetchAt requireMinimal false _)

theorem applyAll_append (first second : List Move) :
    applyAll requireMinimal (first ++ second) = fun stack =>
      applyAll requireMinimal first stack >>= applyAll requireMinimal second :=
  funext fun _ => List.foldlM_append

abbrev pick (depth : Fin 17) : List Move :=
  fetch false depth

abbrev roll (depth : Fin 17) : List Move :=
  fetch true depth

/-- A program that does the same as an operation, by fetching and dropping. -/
def program? : StackOperation → Option (List Move)
  | .dup => some (pick 0)
  | .over => some (pick 1)
  | .swap => some (roll 1)
  | .rotate => some (roll 2)
  | .nip => some [.stack .swap, .stack .drop]
  | .tuck => some [.stack .swap, .stack .over]
  | .drop2 => some [.stack .drop, .stack .drop]
  | .dup2 => some [.stack .over, .stack .over]
  | .dup3 => some (pick 2 ++ (pick 2 ++ pick 2))
  | .over2 => some (pick 3 ++ pick 3)
  | .swap2 => some (roll 3 ++ roll 3)
  | .rotate2 => some (roll 5 ++ roll 5)
  | _ => none

variable {operation : StackOperation} {program : List Move}
  (isProgram : program? operation = some program)

include isProgram

/-- On every stack, however short, an operation and its program do the same. -/
theorem apply_eq_applyAll (stack : Stack) :
    Stack.apply requireMinimal operation stack = applyAll requireMinimal program stack := by
  cases operation <;> cases isProgram <;>
    simp only [applyAll_append, applyAll_fetch, applyAll_cons] <;>
    rcases stack with _ | ⟨a, _ | ⟨b, _ | ⟨c, _ | ⟨d, _ | ⟨e, _ | ⟨f, rest⟩⟩⟩⟩⟩⟩ <;> rfl

omit isProgram in
theorem apply_cases (noPick : operation ≠ .pick) (noRoll : operation ≠ .roll) (stack : Stack) :
    (∃ left, Stack.apply requireMinimal operation stack = .ok left) ∨
      Stack.apply requireMinimal operation stack = .error .invalidStackOperation := by
  unfold Stack.apply
  split
  case h_13 => exact absurd rfl noPick
  case h_14 => exact absurd rfl noRoll
  case h_19 => exact .inr rfl
  all_goals exact .inl ⟨_, rfl⟩

/-- The programs are short, and go a little over the height of the stack at most. -/
theorem bounds_of_program :
    (script program).length ≤ 6 ∧ (program.map cost).sum ≤ 3 ∧ (program.map growth).sum ≤ 3 := by
  cases operation <;> cases isProgram <;> decide

theorem evaluate_program (flags : Flags) (checker : Checker) (version : SignatureVersion)
    (room : stack.length + 3 ≤ Limits.maxStackSize) :
    Context.evaluate ⟨script program, flags, checker, version⟩ stack =
      Outcome.ofExcept (Stack.apply (flags.has .minimalData) operation stack) := by
  obtain ⟨short, few, low⟩ := bounds_of_program isProgram
  rw [apply_eq_applyAll isProgram]
  exact evaluate_script (Nat.le_trans short (by decide)) (Nat.le_trans few (by decide))
    (Nat.le_trans (Nat.add_le_add_left low _) room)

omit isProgram in
theorem evaluate_single (flags : Flags) (checker : Checker) (version : SignatureVersion)
    (room : stack.length + 3 ≤ Limits.maxStackSize) :
    Context.evaluate ⟨script [.stack operation], flags, checker, version⟩ stack =
      Outcome.ofExcept (Stack.apply (flags.has .minimalData) operation stack) := by
  have bounds : (script [.stack operation]).length ≤ Limits.maxScriptSize ∧
      ([Move.stack operation].map growth).sum ≤ 3 := by
    cases operation <;> decide
  rw [evaluate_script bounds.1 (show 1 ≤ Limits.maxOperations by decide)
    (Nat.le_trans (Nat.add_le_add_left bounds.2 _) room)]
  exact congrArg Outcome.ofExcept (bind_pure _)

end Move

/-- An operation that moves or copies elements does the same as its program, whatever the flags,
the checker and the version are.  With room for ten more elements both leave the same stack and
ask nothing, or both fail for want of elements.  All this holds of the machine with a column,
where elements are swapped, inserted and taken out by their places. -/
theorem stack_opcodes_agree_with_their_programs {operation : StackOperation}
    {program : List Move} (isProgram : Move.program? operation = some program) (flags : Flags)
    (checker : Checker) (version : SignatureVersion) (stack : Stack)
    (room : stack.length ≤ 990) :
    Context.evaluate ⟨Move.script [.stack operation], flags, checker, version⟩ stack =
        Context.evaluate ⟨Move.script program, flags, checker, version⟩ stack ∧
      ((∃ left, Context.evaluate ⟨Move.script program, flags, checker, version⟩ stack =
          pure left) ∨
        Context.evaluate ⟨Move.script program, flags, checker, version⟩ stack =
          Outcome.fail .invalidStackOperation) ∧
      Context.evaluateOnColumn ⟨Move.script [.stack operation], flags, checker, version⟩
          stack.reverse =
        Context.evaluateOnColumn ⟨Move.script program, flags, checker, version⟩
          stack.reverse := by
  have room : stack.length + 3 ≤ Limits.maxStackSize := by
    rw [Limits.maxStackSize]
    omega
  have programmed := Move.evaluate_program isProgram flags checker version room
  have same := (Move.evaluate_single flags checker version room).trans programmed.symm
  refine ⟨same, ?_, ?_⟩
  · rw [programmed]
    have noPick : operation ≠ .pick := by
      rintro rfl
      cases isProgram
    have noRoll : operation ≠ .roll := by
      rintro rfl
      cases isProgram
    rcases Move.apply_cases noPick noRoll stack with ⟨left, applied⟩ | failed
    · exact .inl ⟨left, congrArg Outcome.ofExcept applied⟩
    · exact .inr (congrArg Outcome.ofExcept failed)
  · have first : _ = Checked.done _ :=
      Context.evaluate_agrees ⟨Move.script [.stack operation], flags, checker, version⟩ stack
    have second : _ = Checked.done _ :=
      Context.evaluate_agrees ⟨Move.script program, flags, checker, version⟩ stack
    rw [first, second, same]

/-- Swapping two pairs is fetching from the third place below the top, twice; with three elements
both fail. -/
theorem swap2_agrees_with_its_program :
    Move.program? .swap2 = some (Move.roll 3 ++ Move.roll 3) ∧
    Context.evaluate ⟨⟨[0x72]⟩, .standard, .refuse, .base⟩ [[4], [3], [2], [1]] =
      Context.evaluate ⟨⟨[0x53, 0x7a, 0x53, 0x7a]⟩, .standard, .refuse, .base⟩
        [[4], [3], [2], [1]] ∧
    (Context.evaluate ⟨⟨[0x53, 0x7a, 0x53, 0x7a]⟩, .standard, .refuse, .base⟩
      [[4], [3], [2], [1]]).result = .ok [[2], [1], [4], [3]] ∧
    Context.evaluate ⟨⟨[0x72]⟩, .standard, .refuse, .base⟩ [[3], [2], [1]] =
      Context.evaluate ⟨⟨[0x53, 0x7a, 0x53, 0x7a]⟩, .standard, .refuse, .base⟩
        [[3], [2], [1]] ∧
    (Context.evaluate ⟨⟨[0x53, 0x7a, 0x53, 0x7a]⟩, .standard, .refuse, .base⟩
      [[3], [2], [1]]).result = .error .invalidStackOperation := by
  have isProgram : Move.program? .swap2 = some (Move.roll 3 ++ Move.roll 3) := rfl
  have deep := (stack_opcodes_agree_with_their_programs isProgram .standard .refuse .base
    [[4], [3], [2], [1]] (by decide)).1
  have shallow := (stack_opcodes_agree_with_their_programs isProgram .standard .refuse .base
    [[3], [2], [1]] (by decide)).1
  have opcode : Move.script [.stack .swap2] = ⟨[0x72]⟩ := by decide
  have written : Move.script (Move.roll 3 ++ Move.roll 3) = ⟨[0x53, 0x7a, 0x53, 0x7a]⟩ := by
    decide
  rw [opcode, written] at deep shallow
  exact ⟨isProgram, deep, by decide +kernel, shallow, by decide +kernel⟩

end CoinSpend
