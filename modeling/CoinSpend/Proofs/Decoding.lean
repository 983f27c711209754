import CoinSpend.Proofs.Reading
import CoinSpend.Transaction.Decoding

/-!
# Reading a transaction is undoing its writing

A transaction is read from exactly the bytes that it is written as, whatever follows
them.  Not every transaction can be read back: the wire limits counts, lengths and
amounts, and a form without witnesses and without inputs begins like one with
witnesses.
-/

namespace CoinSpend

/-! ## What can be read -/

/-- The wire limits the number of elements of a witness and their lengths. -/
@[mk_iff]
structure WitnessFits (witness : Witness) : Prop where
  count : witness.length ≤ Limits.maxVectorSize
  items : ∀ item ∈ witness, item.length ≤ Limits.maxVectorSize

instance (witness : Witness) : Decidable (WitnessFits witness) :=
  decidable_of_iff' _ (witnessFits_iff witness)

namespace Input

def bare (input : Input) : Input :=
  { input with witness := [] }

theorem bare_eq_self_iff (input : Input) : input.bare = input ↔ input.witness = [] := by
  constructor
  · intro same
    rw [← same]
    rfl
  · intro empty
    rw [bare, ← empty]

theorem with_witness_of_bare_eq {left right : Input} (same : left.bare = right.bare) :
    { right with witness := left.witness } = left := by
  obtain ⟨previous, unlocking, witness, sequence⟩ := left
  obtain ⟨rightPrevious, rightUnlocking, rightWitness, rightSequence⟩ := right
  cases same
  rfl

theorem counted_encode_bare (inputs : List Input) :
    Wire.counted encode (inputs.map bare) = Wire.counted encode inputs := by
  rw [Wire.counted, Wire.counted, List.length_map, List.flatMap_map]
  rfl

theorem map_bare_eq_self {inputs : List Input} (allBare : ∀ input ∈ inputs, input.witness = []) :
    inputs.map bare = inputs := by
  have same : inputs.map bare = inputs.map id :=
    List.map_congr_left fun input member => (bare_eq_self_iff input).mpr (allBare input member)
  rw [same, List.map_id]

theorem encode_ne_nil (input : Input) : input.encode ≠ [] := by
  have positive := input.previous.hash.length_bytes
  intro empty
  rw [encode, OutPoint.encode] at empty
  simp only [List.append_eq_nil_iff] at empty
  rw [empty.1.1.1] at positive
  cases positive

end Input

theorem Output.encode_ne_nil (output : Output) : output.encode ≠ [] :=
  List.append_ne_nil_of_left_ne_nil (List.cons_ne_nil _ _) _

namespace Transaction

/-- The counts, lengths and amounts of a transaction are within the limits of the
wire. -/
@[mk_iff]
structure FitsWire (transaction : Transaction) : Prop where
  inputCount : transaction.inputs.length ≤ Limits.maxVectorSize
  outputCount : transaction.outputs.length ≤ Limits.maxVectorSize
  unlocking : ∀ input ∈ transaction.inputs, input.unlocking.length ≤ Limits.maxVectorSize
  witnesses : ∀ input ∈ transaction.inputs, WitnessFits input.witness
  values : ∀ output ∈ transaction.outputs,
    -Limits.maxSafeInteger ≤ output.value.toInt ∧ output.value.toInt ≤ Limits.maxSafeInteger
  locking : ∀ output ∈ transaction.outputs, output.locking.length ≤ Limits.maxVectorSize

instance (transaction : Transaction) : Decidable transaction.FitsWire :=
  decidable_of_iff' _ (fitsWire_iff transaction)

/-- Without inputs and without room for witnesses, but with outputs: the two counts
begin like a marker and a flag. -/
def IsMistaken (transaction : Transaction) : Prop :=
  transaction.inputs = [] ∧ transaction.outputs ≠ [] ∧ transaction.usesEnvelope = false

instance (transaction : Transaction) : Decidable transaction.IsMistaken :=
  inferInstanceAs (Decidable (_ ∧ _ ∧ _))

def encodeBody (transaction : Transaction) (withWitness : Bool) : Bytes :=
  Wire.counted Input.encode transaction.inputs ++
    (Wire.counted Output.encode transaction.outputs ++
      ((if withWitness then
          transaction.inputs.flatMap fun input => Wire.witness input.witness
        else []) ++
        Wire.uint32 transaction.lockTime))

/-- A transaction that can be read back from its wire form as it is. -/
structure IsReadable (transaction : Transaction) : Prop where
  fits : transaction.FitsWire
  flag_eq : transaction.witnessFlag = transaction.usesEnvelope
  notMistaken : ¬transaction.IsMistaken

theorem hasWitness_eq_false_iff (transaction : Transaction) :
    transaction.hasWitness = false ↔ ∀ input ∈ transaction.inputs, input.witness = [] := by
  simp [hasWitness]

def opening (withWitness : Bool) : Bytes :=
  if withWitness then envelope else []

theorem encodeWith_eq (transaction : Transaction) (withWitness : Bool) :
    transaction.encodeWith withWitness =
      Wire.int32 transaction.version ++
        (opening withWitness ++ transaction.encodeBody withWitness) :=
  rfl

end Transaction

namespace Wire

/-! ## First bytes -/

theorem compactSize_eq_cons (number : Nat) :
    ∃ first tail, compactSize number = first :: tail ∧ (first = 0 ↔ number = 0) := by
  unfold compactSize
  split
  · rename_i small
    refine ⟨_, _, rfl, ?_⟩
    have same : (UInt8.ofNat number).toNat = number := by
      apply UInt8.toNat_ofNat_of_lt'
      change number < 256
      omega
    rw [← UInt8.toNat_inj, same]
    rfl
  · have positive : number ≠ 0 := by omega
    split
    · exact ⟨_, _, rfl, iff_of_false (by decide) positive⟩
    · split
      · exact ⟨_, _, rfl, iff_of_false (by decide) positive⟩
      · exact ⟨_, _, rfl, iff_of_false (by decide) positive⟩

theorem compactSize_ne_nil (number : Nat) : compactSize number ≠ [] := by
  obtain ⟨first, tail, form, -⟩ := compactSize_eq_cons number
  rw [form]
  exact List.cons_ne_nil first tail

theorem lengthPrefixed_ne_nil (bytes : Bytes) : lengthPrefixed bytes ≠ [] :=
  List.append_ne_nil_of_left_ne_nil (compactSize_ne_nil _) _

/-- A zero and another byte that is not zero. -/
def LooksEnveloped (bytes : Bytes) : Prop :=
  ∃ flag tail, bytes = 0 :: flag :: tail ∧ flag ≠ 0

/-- Without witnesses, what follows the version looks like an envelope exactly if there
are outputs and no inputs. -/
theorem looksEnveloped_encodeBody_iff (transaction : Transaction) (rest : Bytes) :
    LooksEnveloped (transaction.encodeBody false ++ rest) ↔
      transaction.inputs = [] ∧ transaction.outputs ≠ [] := by
  obtain ⟨first, inputTail, inputForm, firstZero⟩ :=
    compactSize_eq_cons transaction.inputs.length
  obtain ⟨second, outputTail, outputForm, secondZero⟩ :=
    compactSize_eq_cons transaction.outputs.length
  rw [List.length_eq_zero_iff] at firstZero secondZero
  have form : transaction.encodeBody false ++ rest =
      first :: (inputTail ++ (transaction.inputs.flatMap Input.encode ++
        (second :: (outputTail ++ (transaction.outputs.flatMap Output.encode ++
          (uint32 transaction.lockTime ++ rest)))))) := by
    rw [Transaction.encodeBody, counted, counted, inputForm, outputForm]
    simp only [List.append_assoc, List.cons_append, List.nil_append, Bool.false_eq_true,
      if_false]
  have emptyTail (noInputs : transaction.inputs = []) : inputTail = [] := by
    rw [noInputs] at inputForm
    exact (List.cons.inj inputForm).2.symm
  rw [form]
  constructor
  · rintro ⟨flag, tail, same, nonzero⟩
    obtain ⟨rfl, sameTail⟩ := List.cons.inj same
    have noInputs := firstZero.mp rfl
    rw [noInputs, emptyTail noInputs] at sameTail
    obtain ⟨rfl, -⟩ := List.cons.inj sameTail
    exact ⟨noInputs, mt secondZero.mpr nonzero⟩
  · rintro ⟨noInputs, someOutput⟩
    rw [firstZero.mpr noInputs, noInputs, emptyTail noInputs]
    exact ⟨second, _, rfl, mt secondZero.mp someOutput⟩

namespace Decoder

/-! ## Parts of a transaction -/

theorem outPoint_reads : outPoint.Reads (fun _ => True) OutPoint.encode := by
  intro before value after
  simp only [outPoint, hash256, OutPoint.encode, Reader.takes_append_iff,
    runOn_bind_eq_ok_iff, runOn_pure_eq_ok_iff, fixed_reads 32 _ _ _, uint32_reads _ _ _,
    true_and]
  constructor
  · rintro ⟨hash, middle, takenHash, index, last, takenIndex, rfl, rfl⟩
    exact ⟨middle, takenHash, takenIndex⟩
  · rintro ⟨middle, takenHash, takenIndex⟩
    exact ⟨value.hash, middle, takenHash, value.index, after, takenIndex, rfl, rfl⟩

/-- The inputs come without their witnesses, which follow after the outputs. -/
theorem input_reads :
    input.Reads
      (fun input => input.witness = [] ∧ input.unlocking.length ≤ Limits.maxVectorSize)
      Input.encode := by
  intro before value after
  simp only [input, Input.encode, Reader.takes_append_iff, runOn_bind_eq_ok_iff,
    runOn_pure_eq_ok_iff, outPoint_reads _ _ _, lengthPrefixed_reads _ _ _,
    uint32_reads _ _ _, true_and]
  constructor
  · rintro ⟨previous, first, takenPrevious, unlocking, second, ⟨most, takenUnlocking⟩,
      sequence, last, takenSequence, rfl, rfl⟩
    exact ⟨⟨rfl, most⟩, second, ⟨first, takenPrevious, takenUnlocking⟩, takenSequence⟩
  · rintro ⟨⟨bare, most⟩, second, ⟨first, takenPrevious, takenUnlocking⟩, takenSequence⟩
    refine ⟨value.previous, first, takenPrevious, value.unlocking.bytes, second,
      ⟨most, takenUnlocking⟩, value.sequence, after, takenSequence, ?_, rfl⟩
    rw [← bare]

theorem output_reads :
    output.Reads
      (fun output => isSafeAmount output.value ∧
        output.locking.length ≤ Limits.maxVectorSize)
      Output.encode := by
  intro before value after
  simp only [output, Output.encode, Reader.takes_append_iff, runOn_bind_eq_ok_iff,
    runOn_pure_eq_ok_iff, amount_reads _ _ _, lengthPrefixed_reads _ _ _]
  constructor
  · rintro ⟨amount, middle, ⟨safe, takenAmount⟩, locking, last, ⟨most, takenLocking⟩, rfl, rfl⟩
    exact ⟨⟨safe, most⟩, middle, takenAmount, takenLocking⟩
  · rintro ⟨⟨safe, most⟩, middle, takenAmount, takenLocking⟩
    exact ⟨value.value, middle, ⟨safe, takenAmount⟩, value.locking.bytes, after,
      ⟨most, takenLocking⟩, rfl, rfl⟩

theorem witness_reads : witness.Reads WitnessFits Wire.witness := by
  intro before value after
  rw [witness, counted_reads lengthPrefixed_reads lengthPrefixed_ne_nil before value after,
    witnessFits_iff]
  rfl

/-! ## Marker and flag -/

theorem rest_eq_of_peek {reader : Reader} {first second : UInt8}
    (atFirst : reader.peek? 0 = some first) (atSecond : reader.peek? 1 = some second) :
    reader.rest = first :: second :: reader.rest.drop 2 := by
  obtain ⟨rest, position⟩ := reader
  change rest[0]? = some first at atFirst
  change rest[1]? = some second at atSecond
  cases rest with
  | nil => cases atFirst
  | cons head rest =>
      cases rest with
      | nil => cases atSecond
      | cons next rest =>
          cases atFirst
          cases atSecond
          rfl

theorem looksEnveloped_iff_peek {reader : Reader} :
    LooksEnveloped reader.rest ↔
      ∃ flag, reader.peek? 0 = some 0 ∧ reader.peek? 1 = some flag ∧ flag ≠ 0 := by
  constructor
  · rintro ⟨flag, tail, form, nonzero⟩
    refine ⟨flag, ?_, ?_, nonzero⟩
    · rw [Reader.peek?, form]
      rfl
    · rw [Reader.peek?, form]
      rfl
  · rintro ⟨flag, atFirst, atSecond, nonzero⟩
    exact ⟨flag, _, rest_eq_of_peek atFirst atSecond, nonzero⟩

theorem looksEnveloped_of_takes {before after : Reader}
    (taken : before.Takes Transaction.envelope after) : LooksEnveloped before.rest :=
  ⟨1, after.rest, taken.rest_eq, by decide⟩

section Opening

variable {before after : Reader} {flagged : Bool}

theorem runOn_plain_eq_ok_iff (unlike : ¬LooksEnveloped before.rest) :
    (pure false : Decoder Bool).runOn before = (.ok flagged, after) ↔
      before.Takes (Transaction.opening flagged) after ∧
        (flagged = false → ¬LooksEnveloped before.rest) := by
  rw [runOn_pure_eq_ok_iff]
  cases flagged with
  | true =>
      constructor
      · rintro ⟨impossible, -⟩
        cases impossible
      · rintro ⟨taken, -⟩
        exact absurd (looksEnveloped_of_takes taken) unlike
  | false =>
      constructor
      · rintro ⟨-, rfl⟩
        exact ⟨Reader.takes_nil_iff.mpr rfl, fun _ => unlike⟩
      · rintro ⟨taken, -⟩
        exact ⟨rfl, Reader.takes_nil_iff.mp taken⟩

theorem runOn_marked_eq_ok_iff {tail : Bytes} (form : before.rest = Transaction.envelope ++ tail) :
    (bytes 2 >>= fun _ => pure true).runOn before = (.ok flagged, after) ↔
      before.Takes (Transaction.opening flagged) after ∧
        (flagged = false → ¬LooksEnveloped before.rest) := by
  rw [runOn_bind_eq_ok_iff]
  constructor
  · rintro ⟨marks, middle, read, finished⟩
    obtain ⟨sized, taken⟩ := (bytes_reads 2 _ _ _).mp read
    obtain ⟨rfl, rfl⟩ := runOn_pure_eq_ok_iff.mp finished
    rw [(List.append_inj (taken.rest_eq.symm.trans form) sized).1] at taken
    exact ⟨taken, nofun⟩
  · rintro ⟨taken, unlike⟩
    cases flagged with
    | true =>
        exact ⟨Transaction.envelope, after, (bytes_reads 2 _ _ _).mpr ⟨rfl, taken⟩,
          runOn_pure_eq_ok_iff.mpr ⟨rfl, rfl⟩⟩
    | false => exact absurd ⟨1, tail, form, by decide⟩ (unlike rfl)

/-- The envelope is taken where it stands.  Without it nothing is taken, but then what
follows must not look like one. -/
theorem runOn_envelope_eq_ok_iff :
    envelope.runOn before = (.ok flagged, after) ↔
      before.Takes (Transaction.opening flagged) after ∧
        (flagged = false → ¬LooksEnveloped before.rest) := by
  rw [envelope, runOn_get_bind]
  split
  · rename_i flag atFirst atSecond
    have form := rest_eq_of_peek atFirst atSecond
    split
    · rename_i isZero
      apply runOn_plain_eq_ok_iff
      intro looks
      obtain ⟨other, -, atOther, nonzero⟩ := looksEnveloped_iff_peek.mp looks
      rw [atSecond] at atOther
      exact nonzero ((Option.some.inj atOther).symm.trans isZero)
    · rename_i nonzero
      split
      · rename_i isOne
        rw [isOne] at form
        exact runOn_marked_eq_ok_iff form
      · rename_i notOne
        constructor
        · intro impossible
          cases impossible
        · rintro ⟨taken, unlike⟩
          cases flagged with
          | true =>
              have same := taken.rest_eq.symm.trans form
              exact absurd (List.cons.inj (List.cons.inj same).2).1.symm notOne
          | false => exact absurd ⟨flag, _, form, nonzero⟩ (unlike rfl)
  · rename_i other
    apply runOn_plain_eq_ok_iff
    intro looks
    obtain ⟨flag, atFirst, atSecond, -⟩ := looksEnveloped_iff_peek.mp looks
    exact other flag atFirst atSecond

end Opening

/-! ## Witnesses -/

theorem runOn_witnessesFrom_eq_ok_iff {done bare value : List Input} {before after : Reader} :
    (witnessesFrom done bare).runOn before = (.ok value, after) ↔
      ∃ inputs, value = done.reverse ++ inputs ∧
        inputs.map Input.bare = bare.map Input.bare ∧
        (∀ input ∈ inputs, WitnessFits input.witness) ∧
        before.Takes (inputs.flatMap fun input => Wire.witness input.witness) after := by
  induction bare generalizing done before with
  | nil =>
      rw [witnessesFrom, runOn_pure_eq_ok_iff]
      constructor
      · rintro ⟨rfl, rfl⟩
        refine ⟨[], (List.append_nil _).symm, rfl, ?_, Reader.takes_nil_iff.mpr rfl⟩
        intro input impossible
        cases impossible
      · rintro ⟨inputs, rfl, empty, -, taken⟩
        cases List.map_eq_nil_iff.mp empty
        exact ⟨(List.append_nil _).symm, Reader.takes_nil_iff.mp taken⟩
  | cons input bare ih =>
      rw [witnessesFrom, runOn_bind_eq_ok_iff]
      constructor
      · rintro ⟨stack, middle, read, rest⟩
        obtain ⟨fits, taken⟩ := (witness_reads _ _ _).mp read
        obtain ⟨inputs, rfl, sameBare, allFit, takenRest⟩ := ih.mp rest
        refine ⟨{ input with witness := stack } :: inputs, ?_, ?_, ?_, ?_⟩
        · rw [List.reverse_cons, List.append_assoc, List.singleton_append]
        · rw [List.map_cons, List.map_cons, sameBare]
          rfl
        · exact List.forall_mem_cons.mpr ⟨fits, allFit⟩
        · rw [List.flatMap_cons]
          exact Reader.takes_append_iff.mpr ⟨middle, taken, takenRest⟩
      · rintro ⟨inputs, rfl, sameBare, allFit, taken⟩
        cases inputs with
        | nil => cases sameBare
        | cons first inputs =>
            obtain ⟨fits, allFit⟩ := List.forall_mem_cons.mp allFit
            obtain ⟨sameFirst, sameBare⟩ := List.cons.inj sameBare
            rw [List.flatMap_cons] at taken
            obtain ⟨middle, taken, takenRest⟩ := Reader.takes_append_iff.mp taken
            refine ⟨first.witness, middle, (witness_reads _ _ _).mpr ⟨fits, taken⟩, ih.mpr ?_⟩
            refine ⟨inputs, ?_, sameBare, allFit, takenRest⟩
            rw [Input.with_witness_of_bare_eq sameFirst, List.reverse_cons, List.append_assoc,
              List.singleton_append]

/-! ## Whole transactions -/

/-- Give the inputs the witnesses that follow, if any do. -/
def withWitnesses (flagged : Bool) (bare : List Input) : Decoder (List Input) :=
  if flagged then witnessesFrom [] bare else pure bare

def body (version : Int32) (flagged : Bool) : Decoder Transaction := do
  let bare ← length >>= fun number => repeated number input
  let outputs ← length >>= fun number => repeated number output
  let inputs ← withWitnesses flagged bare
  let lockTime ← uint32
  return ⟨version, inputs, outputs, lockTime, flagged⟩

theorem transaction_eq :
    transaction = int32 >>= fun version => envelope >>= body version := by
  have branch (flagged : Bool) (bare : List Input) (next : List Input → Decoder Transaction) :
      withWitnesses flagged bare >>= next =
        if flagged then witnessesFrom [] bare >>= next else next bare := by
    cases flagged with
    | false => exact pure_bind bare next
    | true => rfl
  unfold body transaction
  simp only [bind_assoc, branch, pure_bind]

theorem runOn_withWitnesses_eq_ok_iff {flagged : Bool} {bare inputs : List Input}
    {before after : Reader} (allBare : ∀ input ∈ bare, input.witness = []) :
    (withWitnesses flagged bare).runOn before = (.ok inputs, after) ↔
      inputs.map Input.bare = bare ∧
        (∀ input ∈ inputs, WitnessFits input.witness) ∧
        (flagged = false → ∀ input ∈ inputs, input.witness = []) ∧
        before.Takes
          (if flagged then inputs.flatMap fun input => Wire.witness input.witness else [])
          after := by
  unfold withWitnesses
  cases flagged with
  | true =>
      rw [if_pos rfl, if_pos rfl, runOn_witnessesFrom_eq_ok_iff, Input.map_bare_eq_self allBare]
      constructor
      · rintro ⟨items, rfl, sameBare, allFit, taken⟩
        exact ⟨sameBare, allFit, nofun, taken⟩
      · rintro ⟨sameBare, allFit, -, taken⟩
        exact ⟨inputs, rfl, sameBare, allFit, taken⟩
  | false =>
      rw [if_neg Bool.false_ne_true, if_neg Bool.false_ne_true, runOn_pure_eq_ok_iff,
        Reader.takes_nil_iff]
      constructor
      · rintro ⟨rfl, rfl⟩
        refine ⟨Input.map_bare_eq_self allBare, ?_, fun _ => allBare, rfl⟩
        intro input member
        rw [allBare input member]
        exact ⟨Nat.zero_le _, nofun⟩
      · rintro ⟨sameBare, -, noWitness, rfl⟩
        rw [← sameBare, Input.map_bare_eq_self (noWitness rfl)]
        exact ⟨rfl, rfl⟩

theorem runOn_body_eq_ok_iff {version : Int32} {flagged : Bool} {before after : Reader}
    {value : Transaction} :
    (body version flagged).runOn before = (.ok value, after) ↔
      value.FitsWire ∧ value.version = version ∧ value.witnessFlag = flagged ∧
        value.usesEnvelope = flagged ∧ before.Takes (value.encodeBody flagged) after := by
  have inputs_read := counted_reads input_reads Input.encode_ne_nil
  have outputs_read := counted_reads output_reads Output.encode_ne_nil
  constructor
  · intro read
    obtain ⟨bare, first, readInputs, read⟩ := runOn_bind_eq_ok_iff.mp read
    obtain ⟨outputs, second, readOutputs, read⟩ := runOn_bind_eq_ok_iff.mp read
    obtain ⟨inputs, third, readWitnesses, read⟩ := runOn_bind_eq_ok_iff.mp read
    obtain ⟨lockTime, last, readLockTime, read⟩ := runOn_bind_eq_ok_iff.mp read
    obtain ⟨rfl, rfl⟩ := runOn_pure_eq_ok_iff.mp read
    obtain ⟨⟨inputCount, allBare⟩, takenInputs⟩ := (inputs_read _ _ _).mp readInputs
    obtain ⟨⟨outputCount, allSafe⟩, takenOutputs⟩ := (outputs_read _ _ _).mp readOutputs
    obtain ⟨rfl, allFit, noWitness, takenWitnesses⟩ :=
      (runOn_withWitnesses_eq_ok_iff fun input member => (allBare input member).1).mp
        readWitnesses
    obtain ⟨-, takenLockTime⟩ := (uint32_reads _ _ _).mp readLockTime
    rw [Input.counted_encode_bare] at takenInputs
    rw [List.length_map] at inputCount
    rw [List.forall_mem_map] at allBare
    refine ⟨⟨inputCount, outputCount, fun input member => (allBare input member).2, allFit,
      fun output member => (allSafe output member).1,
      fun output member => (allSafe output member).2⟩, rfl, rfl, ?_, ?_⟩
    · cases flagged with
      | true => rfl
      | false => exact (Transaction.hasWitness_eq_false_iff _).mpr (noWitness rfl)
    · rw [Transaction.encodeBody, Reader.takes_append_iff]
      refine ⟨first, takenInputs, Reader.takes_append_iff.mpr ⟨second, takenOutputs, ?_⟩⟩
      exact Reader.takes_append_iff.mpr ⟨third, takenWitnesses, takenLockTime⟩
  · rintro ⟨fits, rfl, rfl, sameFlag, taken⟩
    obtain ⟨first, takenInputs, taken⟩ := Reader.takes_append_iff.mp taken
    obtain ⟨second, takenOutputs, taken⟩ := Reader.takes_append_iff.mp taken
    obtain ⟨third, takenWitnesses, takenLockTime⟩ := Reader.takes_append_iff.mp taken
    rw [← Input.counted_encode_bare] at takenInputs
    have noWitness (unflagged : value.witnessFlag = false) :
        ∀ input ∈ value.inputs, input.witness = [] := by
      rw [Transaction.usesEnvelope, unflagged, Bool.false_or] at sameFlag
      exact (Transaction.hasWitness_eq_false_iff value).mp sameFlag
    refine runOn_bind_eq_ok_iff.mpr ⟨value.inputs.map Input.bare, first, ?_,
      runOn_bind_eq_ok_iff.mpr ⟨value.outputs, second, ?_,
        runOn_bind_eq_ok_iff.mpr ⟨value.inputs, third, ?_,
          runOn_bind_eq_ok_iff.mpr ⟨value.lockTime, after,
            (uint32_reads _ _ _).mpr ⟨trivial, takenLockTime⟩,
            runOn_pure_eq_ok_iff.mpr ⟨rfl, rfl⟩⟩⟩⟩⟩
    · refine (inputs_read _ _ _).mpr ⟨⟨?_, ?_⟩, takenInputs⟩
      · rw [List.length_map]
        exact fits.inputCount
      · rw [List.forall_mem_map]
        exact fun input member => ⟨rfl, fits.unlocking input member⟩
    · exact (outputs_read _ _ _).mpr ⟨⟨fits.outputCount, fun output member =>
        ⟨fits.values output member, fits.locking output member⟩⟩, takenOutputs⟩
    · refine (runOn_withWitnesses_eq_ok_iff ?_).mpr
        ⟨rfl, fits.witnesses, noWitness, takenWitnesses⟩
      rw [List.forall_mem_map]
      exact fun input _ => rfl

/-- A transaction is read exactly from its wire form, if it can be read back at all. -/
theorem transaction_reads : transaction.Reads Transaction.IsReadable Transaction.encode := by
  intro before value after
  rw [transaction_eq, runOn_bind_eq_ok_iff, Transaction.encode, Transaction.encodeWith_eq]
  constructor
  · rintro ⟨version, first, readVersion, read⟩
    obtain ⟨flagged, second, readEnvelope, read⟩ := runOn_bind_eq_ok_iff.mp read
    obtain ⟨-, takenVersion⟩ := (int32_reads _ _ _).mp readVersion
    obtain ⟨takenOpening, unlike⟩ := runOn_envelope_eq_ok_iff.mp readEnvelope
    obtain ⟨fits, rfl, flagEq, rfl, takenBody⟩ := runOn_body_eq_ok_iff.mp read
    refine ⟨⟨fits, flagEq, ?_⟩, Reader.takes_append_iff.mpr ⟨first, takenVersion,
      Reader.takes_append_iff.mpr ⟨second, takenOpening, takenBody⟩⟩⟩
    rintro ⟨noInputs, someOutput, plain⟩
    rw [plain] at takenOpening takenBody
    have sameReader := Reader.takes_nil_iff.mp takenOpening
    have looks := (looksEnveloped_encodeBody_iff value after.rest).mpr ⟨noInputs, someOutput⟩
    rw [← takenBody.rest_eq, ← sameReader] at looks
    exact unlike plain looks
  · rintro ⟨⟨fits, flagEq, notMistaken⟩, taken⟩
    obtain ⟨first, takenVersion, taken⟩ := Reader.takes_append_iff.mp taken
    obtain ⟨second, takenOpening, takenBody⟩ := Reader.takes_append_iff.mp taken
    have unlike (plain : value.usesEnvelope = false) : ¬LooksEnveloped first.rest := by
      rw [plain] at takenOpening takenBody
      rw [Reader.takes_nil_iff.mp takenOpening, takenBody.rest_eq,
        looksEnveloped_encodeBody_iff]
      rintro ⟨noInputs, someOutput⟩
      exact notMistaken ⟨noInputs, someOutput, plain⟩
    exact ⟨value.version, first, (int32_reads _ _ _).mpr ⟨trivial, takenVersion⟩,
      runOn_bind_eq_ok_iff.mpr ⟨value.usesEnvelope, second,
        runOn_envelope_eq_ok_iff.mpr ⟨takenOpening, unlike⟩,
        runOn_body_eq_ok_iff.mpr ⟨fits, rfl, flagEq, rfl, takenBody⟩⟩⟩

end Decoder

end Wire

end CoinSpend
