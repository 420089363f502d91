import TpmLink.Proofs.Fifo.Bursts

/-!
# Burst after burst

A transfer can be told byte by byte, with a look at the budget before each, or burst by burst: wait
for a budget, then move bytes until it is spent or none is wanted, and begin again. The second way
ends only because a wait for a burst never yields a budget of none, so each burst moves a byte at
least. Both ways run through the same traces to the same results.
-/

namespace TpmLink

namespace Fifo

open Script

variable (link : Fifo)

/-- Send bytes as long as there is budget. Yields the bytes that are left. -/
def sendBurst : Nat → Bytes → Script Bytes
  | 0, bytes => return bytes
  | _ + 1, [] => return []
  | budget + 1, byte :: rest => do
    Script.checked (Script.writeByte link.data byte)
    sendBurst budget rest

/-- Send burst after burst as long as bytes are left, so many bursts at most. -/
def sendBursts : Nat → Bytes → Script Unit
  | _, [] => return ()
  | 0, _ :: _ => throw .timeout
  | bursts + 1, byte :: rest => do
    let budget ← link.awaitBurst
    let left ← link.sendBurst budget (byte :: rest)
    sendBursts bursts left

/-- Receive bytes as long as there is budget and a byte is wanted. Yields the budget that is left,
how many bytes are still wanted, and the bytes received so far, last byte first. -/
def receiveBurst : Nat → Nat → Bytes → Script (Nat × Nat × Bytes)
  | 0, wanted, soFar => return (0, wanted, soFar)
  | budget + 1, 0, soFar => return (budget + 1, 0, soFar)
  | budget + 1, wanted + 1, soFar => do
    let byte ← Script.checked (Script.readByte link.data)
    receiveBurst budget wanted (byte :: soFar)

/-- Receive burst after burst as long as bytes are wanted, so many bursts at most. A budget that is
left from before is spent first. -/
def receiveBursts : Nat → Nat → Nat → Bytes → Script (Bytes × Nat)
  | _, 0, budget, soFar => return (soFar.reverse, budget)
  | 0, _ + 1, _, _ => throw .timeout
  | bursts + 1, wanted + 1, budget, soFar => do
    let budget ← link.refill budget
    let (budget, wanted, soFar) ← link.receiveBurst budget (wanted + 1) soFar
    receiveBursts bursts wanted budget soFar

variable {link} {trace : Trace}

/-- A wait for a burst never yields a budget of none. -/
theorem ne_zero_of_runs_awaitBurst {budget : Nat} (h : link.awaitBurst.Runs trace (.ok budget)) :
    budget ≠ 0 :=
  (runs_awaitBurst_ok_iff.mp h).1

/-! ### Sending -/

/-- Bytes that are sent one by one use up the budget first. -/
theorem sendBytes_eq (bytes : Bytes) (budget : Nat) :
    link.sendBytes bytes budget = link.sendBurst budget bytes >>= fun left =>
      link.sendBytes left 0 := by
  induction bytes generalizing budget with
  | nil => cases budget <;> rfl
  | cons byte rest ih =>
    cases budget with
    | zero => rfl
    | succ budget =>
      have hrefill : link.refill (budget + 1) = pure (budget + 1) := rfl
      rw [sendBytes, hrefill, pure_bind, sendBurst, bind_assoc]
      exact bind_congr fun _ => ih budget

/-- A burst leaves the bytes that go beyond its budget. -/
theorem runs_sendBurst_ok {budget : Nat} {bytes left : Bytes}
    (h : (link.sendBurst budget bytes).Runs trace (.ok left)) : left = bytes.drop budget := by
  induction budget, bytes using sendBurst.induct generalizing trace with
  | case1 bytes =>
    obtain ⟨-, hleft⟩ := runs_pure_iff.mp h
    cases hleft
    rfl
  | case2 budget =>
    obtain ⟨-, hleft⟩ := runs_pure_iff.mp h
    cases hleft
    rfl
  | case3 budget byte rest ih =>
    obtain ⟨front, back, _, rfl, -, hback⟩ := runs_bind_ok_iff.mp h
    exact ih hback

/-- To send burst after burst is to send byte after byte. -/
theorem runs_sendBursts_iff {bursts : Nat} {bytes : Bytes} {result : Except Failure Unit}
    (h : bytes.length ≤ bursts) :
    (link.sendBursts bursts bytes).Runs trace result ↔
      (link.sendBytes bytes 0).Runs trace result := by
  induction bursts generalizing bytes trace with
  | zero =>
    obtain rfl := List.eq_nil_of_length_eq_zero (Nat.le_zero.mp h)
    rfl
  | succ bursts ih =>
    cases bytes with
    | nil => rfl
    | cons byte rest =>
      have hwait : link.refill 0 = link.awaitBurst := rfl
      rw [sendBursts, sendBytes, hwait]
      refine runs_bind_congr fun wait back budget hgrant => ?_
      obtain ⟨budget, rfl⟩ :=
        Nat.exists_eq_add_one_of_ne_zero (ne_zero_of_runs_awaitBurst hgrant)
      have hmoves : (Script.checked (Script.writeByte link.data byte) >>= fun _ =>
          link.sendBytes rest budget) = link.sendBytes (byte :: rest) (budget + 1) := rfl
      rw [Nat.add_sub_cancel, hmoves, sendBytes_eq]
      refine runs_bind_congr fun burst back left hburst => ih ?_
      rw [runs_sendBurst_ok hburst, List.drop_succ_cons, List.length_drop]
      rw [List.length_cons] at h
      omega

/-! ### Receiving -/

theorem receiveBytes_eq (wanted budget : Nat) (soFar : Bytes) :
    link.receiveBytes wanted budget soFar = link.receiveBurst budget wanted soFar >>= fun rest =>
      link.receiveBytes rest.2.1 rest.1 rest.2.2 := by
  induction wanted generalizing budget soFar with
  | zero => cases budget <;> rfl
  | succ wanted ih =>
    cases budget with
    | zero => rfl
    | succ budget =>
      have hrefill : link.refill (budget + 1) = pure (budget + 1) := rfl
      rw [receiveBytes, hrefill, pure_bind, receiveBurst, bind_assoc]
      exact bind_congr fun byte => ih budget (byte :: soFar)

/-- Behind a burst the bytes are wanted that go beyond its budget. -/
theorem runs_receiveBurst_ok {budget wanted : Nat} {soFar : Bytes} {rest : Nat × Nat × Bytes}
    (h : (link.receiveBurst budget wanted soFar).Runs trace (.ok rest)) :
    rest.2.1 = wanted - budget := by
  induction budget, wanted, soFar using receiveBurst.induct generalizing trace with
  | case1 wanted soFar =>
    obtain ⟨-, hrest⟩ := runs_pure_iff.mp h
    cases hrest
    rfl
  | case2 budget soFar =>
    obtain ⟨-, hrest⟩ := runs_pure_iff.mp h
    cases hrest
    exact (Nat.zero_sub _).symm
  | case3 budget wanted soFar ih =>
    obtain ⟨front, back, byte, rfl, -, hback⟩ := runs_bind_ok_iff.mp h
    rw [ih byte hback, Nat.succ_sub_succ]

/-- To receive burst after burst is to receive byte after byte, with the same budget left. -/
theorem runs_receiveBursts_iff {bursts wanted budget : Nat} {soFar : Bytes}
    {result : Except Failure (Bytes × Nat)} (h : wanted ≤ bursts) :
    (link.receiveBursts bursts wanted budget soFar).Runs trace result ↔
      (link.receiveBytes wanted budget soFar).Runs trace result := by
  induction bursts generalizing wanted budget soFar trace with
  | zero =>
    obtain rfl := Nat.le_zero.mp h
    rfl
  | succ bursts ih =>
    cases wanted with
    | zero => rfl
    | succ wanted =>
      rw [receiveBursts, receiveBytes]
      refine runs_bind_congr fun wait back budget' hgrant => ?_
      obtain ⟨left, rfl, -⟩ := runs_refill_ok_iff.mp hgrant
      have hmoves : (Script.checked (Script.readByte link.data) >>= fun byte =>
          link.receiveBytes wanted left (byte :: soFar)) =
            link.receiveBytes (wanted + 1) (left + 1) soFar := rfl
      rw [Nat.add_sub_cancel, hmoves, receiveBytes_eq]
      refine runs_bind_congr fun burst back rest hburst => ih ?_
      exact Nat.le_trans (Nat.le_of_eq (runs_receiveBurst_ok hburst)) (by omega)

end Fifo

end TpmLink
