import TpmLink.Bus.Width
import TpmLink.Effects

/-!
# Scripts of bus accesses

A script is a program whose only effects are bus accesses, stalls and notices. It is a finite tree:
each access branches over the answer, a fault included. Running it on a device walks the tree from
the root to a result, so a statement about all paths of the tree is a statement about all devices.
-/

namespace TpmLink

inductive Script (α : Type) : Type where
  | done (result : Except Failure α)
  | read (addr : Nat) (width : Width) (next : Except BusFault UInt64 → Script α)
  | write (addr : Nat) (width : Width) (value : UInt64) (next : Except BusFault Unit → Script α)
  | stall (micros : Nat) (next : Script α)
  | note (notice : Notice) (next : Script α)

namespace Script

variable {α β σ : Type}

/-- Go on with the result of a script, whether it is a value or a failure. -/
def andThen (next : Except Failure α → Script β) : Script α → Script β
  | done result => next result
  | read addr width rest => read addr width fun answer => (rest answer).andThen next
  | write addr width value rest =>
    write addr width value fun answer => (rest answer).andThen next
  | stall micros rest => stall micros (rest.andThen next)
  | note notice rest => note notice (rest.andThen next)

/-- Go on with the value of a script; a failure ends the whole. -/
def bind (script : Script α) (next : α → Script β) : Script β :=
  script.andThen fun
    | .ok value => next value
    | .error failure => done (.error failure)

/-- Go on with another script where this one fails. -/
def recover (script : Script α) (next : Failure → Script α) : Script α :=
  script.andThen fun
    | .ok value => done (.ok value)
    | .error failure => next failure

instance : Monad Script where
  pure value := done (.ok value)
  bind := Script.bind

instance : MonadExceptOf Failure Script where
  throw failure := done (.error failure)
  tryCatch := Script.recover

instance : Journal Script := ⟨fun notice => note notice (done (.ok ()))⟩

instance : Clock Script := ⟨fun micros => stall micros (done (.ok ()))⟩

/-- The result of a script as a value. -/
def observe (script : Script α) : Script (Except Failure α) :=
  script.andThen fun result => done (.ok result)

/-- Run `exit` after the script, however it ends, and keep the script's own result. -/
def ensuring (script : Script α) (exit : Script Unit) : Script α :=
  script.andThen fun result => exit.andThen fun _ => done result

@[simp] theorem andThen_done (next : Except Failure α → Script β) (result : Except Failure α) :
    (done result).andThen next = next result := rfl

theorem andThen_andThen {γ : Type} (script : Script α) (f : Except Failure α → Script β)
    (g : Except Failure β → Script γ) :
    (script.andThen f).andThen g = script.andThen fun result => (f result).andThen g := by
  induction script with
  | done => rfl
  | read _ _ _ ih => simp [andThen, ih]
  | write _ _ _ _ ih => simp [andThen, ih]
  | stall _ _ ih => simp [andThen, ih]
  | note _ _ ih => simp [andThen, ih]

theorem andThen_done_right (script : Script α) : script.andThen done = script := by
  induction script with
  | done => rfl
  | read _ _ _ ih => simp [andThen, ih]
  | write _ _ _ _ ih => simp [andThen, ih]
  | stall _ _ ih => simp [andThen, ih]
  | note _ _ ih => simp [andThen, ih]

protected theorem id_map (script : Script α) : id <$> script = script := by
  change script.andThen _ = script
  conv => rhs; rw [← andThen_done_right script]
  congr 1
  funext result
  cases result <;> rfl

protected theorem bind_assoc {γ : Type} (script : Script α) (f : α → Script β) (g : β → Script γ) :
    script >>= f >>= g = script >>= fun value => f value >>= g := by
  change (script.andThen _).andThen _ = script.andThen _
  rw [andThen_andThen]
  congr 1
  funext result
  cases result <;> rfl

instance : LawfulMonad Script :=
  .mk' Script Script.id_map (fun _ _ => rfl) Script.bind_assoc

/-! ### Typed accesses

The bus answers with 64 bits, whatever was asked for; an access of one or four bytes keeps the low
ones. -/

def readByte (addr : Nat) : Script (Except BusFault UInt8) :=
  read addr .byte fun answer => done (.ok (answer.map UInt64.toUInt8))

def readDword (addr : Nat) : Script (Except BusFault UInt32) :=
  read addr .dword fun answer => done (.ok (answer.map UInt64.toUInt32))

def writeByte (addr : Nat) (value : UInt8) : Script (Except BusFault Unit) :=
  write addr .byte value.toUInt64 fun answer => done (.ok answer)

def writeDword (addr : Nat) (value : UInt32) : Script (Except BusFault Unit) :=
  write addr .dword value.toUInt64 fun answer => done (.ok answer)

def writeQword (addr : Nat) (value : UInt64) : Script (Except BusFault Unit) :=
  write addr .qword value fun answer => done (.ok answer)

/-- Report a fault and fail with it. -/
def accept : Except BusFault α → Script α
  | .ok value => done (.ok value)
  | .error fault => note (.busFailed fault) (done (.error .io))

/-- An access whose fault is a failure of the script. -/
def checked (access : Script (Except BusFault α)) : Script α := access.bind accept

end Script

/-- Something that answers bus accesses, lets time pass and listens to notices. -/
structure Device (σ : Type) where
  read : Nat → Width → σ → Except BusFault UInt64 × σ
  write : Nat → Width → UInt64 → σ → Except BusFault Unit × σ
  stall : Nat → σ → σ
  note : Notice → σ → σ

/-- Walk a script on a device. -/
def Script.run {α σ : Type} (device : Device σ) : Script α → σ → Except Failure α × σ
  | done result, state => (result, state)
  | read addr width next, state =>
    let (answer, state) := device.read addr width state
    (next answer).run device state
  | write addr width value next, state =>
    let (answer, state) := device.write addr width value state
    (next answer).run device state
  | stall micros next, state => next.run device (device.stall micros state)
  | note notice next, state => next.run device (device.note notice state)

end TpmLink
