import TpmLink.Proofs.Wire.Numerals
import TpmLink.Wire.Cursor

/-!
# What a reader accepts

A grammar says which bytes stand for which value. A reader recognizes a grammar when it accepts
exactly those bytes, wherever they stand and whatever follows them, and stops right behind them; it
exhausts a grammar when it accepts them only as all that is left. One statement covers both ways:
nothing else is accepted, and nothing in the grammar is refused. Readers in sequence recognize the
sequence of their grammars, so a structure is followed field by field.
-/

namespace TpmLink

/-- Which bytes stand for which value. -/
abbrev Grammar (α : Type) : Type := Bytes → α → Prop

namespace Grammar

variable {α β : Type}

/-- Each valid value by its encoding. -/
def encoding (valid : α → Prop) (encode : α → Bytes) : Grammar α :=
  fun bytes value => valid value ∧ bytes = encode value

/-- The bytes of one grammar and behind them those of the grammar that its value selects. -/
def andThen (first : Grammar α) (next : α → Grammar β) : Grammar β :=
  fun bytes value => ∃ a front back, first front a ∧ next a back value ∧ bytes = front ++ back

/-- No bytes, for one value. -/
def unit (value : α) : Grammar α := fun bytes found => bytes = [] ∧ found = value

/-- Nothing at all. -/
def nothing : Grammar α := fun _ _ => False

/-- Behind an encoding the rest is left to the next grammar. -/
theorem encoding_andThen (valid : α → Prop) (encode : α → Bytes) (next : α → Grammar β)
    (bytes : Bytes) (value : β) :
    ((encoding valid encode).andThen next) bytes value ↔
      ∃ a back, valid a ∧ next a back value ∧ bytes = encode a ++ back := by
  constructor
  · rintro ⟨a, front, back, ⟨hvalid, rfl⟩, hnext, hbytes⟩
    exact ⟨a, back, hvalid, hnext, hbytes⟩
  · rintro ⟨a, back, hvalid, hnext, hbytes⟩
    exact ⟨a, encode a, back, ⟨hvalid, rfl⟩, hnext, hbytes⟩

end Grammar

namespace Reader

variable {α β : Type} {reader : Reader α} {next : α → Reader β}

/-- The reader accepts exactly the bytes of the grammar and stops right behind them. -/
def Recognizes (reader : Reader α) (grammar : Grammar α) : Prop :=
  ∀ cursor value after, reader cursor = (.ok value, after) ↔
    ∃ bytes, grammar bytes value ∧ cursor.rest = bytes ++ after.rest ∧
      after.position = cursor.position + bytes.length

/-- The reader accepts exactly where all that is left is in the grammar, and stops at the end. -/
def Exhausts (reader : Reader α) (grammar : Grammar α) : Prop :=
  ∀ cursor value after, reader cursor = (.ok value, after) ↔
    grammar cursor.rest value ∧ after = ⟨cursor.position + cursor.rest.length, []⟩

/-! ### Sequences -/

theorem bind_of_ok {cursor after : Cursor} {a : α} (h : reader cursor = (.ok a, after)) :
    (reader >>= next) cursor = next a after := by
  change Reader.bind reader next cursor = _
  rw [Reader.bind, h]

theorem bind_of_error {cursor after : Cursor} {cause : Malformed}
    (h : reader cursor = (.error cause, after)) :
    (reader >>= next) cursor = (.error cause, after) := by
  change Reader.bind reader next cursor = _
  rw [Reader.bind, h]

theorem bind_eq_ok_iff (reader : Reader α) (next : α → Reader β) (cursor after : Cursor)
    (value : β) :
    (reader >>= next) cursor = (.ok value, after) ↔
      ∃ a middle, reader cursor = (.ok a, middle) ∧ next a middle = (.ok value, after) := by
  cases hread : reader cursor with
  | mk result middle =>
    cases result with
    | ok a =>
      rw [bind_of_ok hread]
      simp [and_assoc]
    | error cause =>
      rw [bind_of_error hread]
      simp

/-- Grammars with the same bytes and values are recognized by the same readers. -/
theorem Recognizes.congr {first second : Grammar α} (h : reader.Recognizes first)
    (heq : ∀ bytes value, first bytes value ↔ second bytes value) : reader.Recognizes second := by
  intro cursor value after
  rw [h cursor value after]
  simp only [heq]

theorem Exhausts.congr {first second : Grammar α} (h : reader.Exhausts first)
    (heq : ∀ bytes value, first bytes value ↔ second bytes value) : reader.Exhausts second := by
  intro cursor value after
  rw [h cursor value after, heq]

theorem Recognizes.bind {first : Grammar α} {second : α → Grammar β}
    (hreader : reader.Recognizes first) (hnext : ∀ a, (next a).Recognizes (second a)) :
    (reader >>= next).Recognizes (first.andThen second) := by
  intro cursor value after
  rw [bind_eq_ok_iff]
  constructor
  · rintro ⟨a, middle, hfirst, hsecond⟩
    obtain ⟨front, hfront, hrest, hposition⟩ := (hreader cursor a middle).mp hfirst
    obtain ⟨back, hback, hrest', hposition'⟩ := (hnext a middle value after).mp hsecond
    refine ⟨front ++ back, ⟨a, front, back, hfront, hback, rfl⟩, ?_, ?_⟩
    · rw [hrest, hrest', List.append_assoc]
    · rw [hposition', hposition, List.length_append, Nat.add_assoc]
  · rintro ⟨bytes, ⟨a, front, back, hfront, hback, rfl⟩, hrest, hposition⟩
    refine ⟨a, ⟨cursor.position + front.length, back ++ after.rest⟩, ?_, ?_⟩
    · exact (hreader _ _ _).mpr ⟨front, hfront, by rw [hrest, List.append_assoc], rfl⟩
    · refine (hnext _ _ _ _).mpr ⟨back, hback, rfl, ?_⟩
      rw [hposition, List.length_append, Nat.add_assoc]

theorem Exhausts.bind {first : Grammar α} {second : α → Grammar β}
    (hreader : reader.Recognizes first) (hnext : ∀ a, (next a).Exhausts (second a)) :
    (reader >>= next).Exhausts (first.andThen second) := by
  intro cursor value after
  rw [bind_eq_ok_iff]
  constructor
  · rintro ⟨a, middle, hfirst, hsecond⟩
    obtain ⟨front, hfront, hrest, hposition⟩ := (hreader cursor a middle).mp hfirst
    obtain ⟨hback, hafter⟩ := (hnext a middle value after).mp hsecond
    refine ⟨⟨a, front, middle.rest, hfront, hback, hrest⟩, ?_⟩
    rw [hafter, hposition, hrest, List.length_append, Nat.add_assoc]
  · rintro ⟨⟨a, front, back, hfront, hback, hrest⟩, hafter⟩
    refine ⟨a, ⟨cursor.position + front.length, back⟩, ?_, ?_⟩
    · exact (hreader _ _ _).mpr ⟨front, hfront, hrest, rfl⟩
    · refine (hnext _ _ _ _).mpr ⟨hback, ?_⟩
      rw [hafter, hrest, List.length_append, Nat.add_assoc]

theorem recognizes_pure (value : α) : (pure value : Reader α).Recognizes (.unit value) := by
  intro cursor found after
  change (Except.ok value, cursor) = (Except.ok found, after) ↔ _
  constructor
  · intro h
    cases h
    exact ⟨[], ⟨rfl, rfl⟩, rfl, rfl⟩
  · rintro ⟨_, ⟨rfl, rfl⟩, hrest, hposition⟩
    cases cursor
    cases after
    simp_all

/-- A reader that never succeeds recognizes nothing. -/
theorem recognizes_nothing (h : ∀ cursor, ∃ cause after, reader cursor = (.error cause, after)) :
    reader.Recognizes .nothing := by
  intro cursor value after
  obtain ⟨cause, stopped, hfails⟩ := h cursor
  simp [hfails, Grammar.nothing]

theorem recognizes_fail (cause : Malformed) : (fail cause : Reader α).Recognizes .nothing :=
  recognizes_nothing fun cursor => ⟨cause, cursor, rfl⟩

/-- A value that stands only where nothing is left. -/
theorem exhausts_end (value : α) (cause : Nat → Malformed) :
    (remaining >>= fun left => if left = 0 then pure value else fail (cause left)).Exhausts
      (.unit value) := by
  intro cursor found after
  obtain ⟨position, rest⟩ := cursor
  rw [bind_eq_ok_iff]
  constructor
  · rintro ⟨left, middle, hleft, hnext⟩
    cases hleft
    cases rest with
    | nil =>
      cases hnext
      exact ⟨⟨rfl, rfl⟩, rfl⟩
    | cons byte rest => simp [Cursor.remaining, fail] at hnext
  · rintro ⟨⟨rfl, rfl⟩, rfl⟩
    exact ⟨0, ⟨position, []⟩, rfl, rfl⟩

/-! ### Numbers, payloads and algorithms -/

theorem recognizes_bytes (count : Nat) :
    (bytes count).Recognizes fun bytes value => value.length = count ∧ bytes = value := by
  intro cursor value after
  by_cases hshort : cursor.remaining < count
  · have hread : bytes count cursor =
        (.error (.truncated count cursor.position cursor.remaining), cursor) := if_pos hshort
    rw [hread]
    constructor
    · intro h
      cases h
    · rintro ⟨_, ⟨rfl, rfl⟩, hrest, -⟩
      rw [Cursor.remaining, hrest, List.length_append] at hshort
      omega
  · have hread : bytes count cursor =
        (.ok (cursor.rest.take count), ⟨cursor.position + count, cursor.rest.drop count⟩) :=
      if_neg hshort
    have hlength : (cursor.rest.take count).length = count := by
      rw [List.length_take]
      exact Nat.min_eq_left (Nat.not_lt.mp hshort)
    rw [hread]
    constructor
    · intro h
      cases h
      exact ⟨_, ⟨hlength, rfl⟩, (List.take_append_drop count cursor.rest).symm, by rw [hlength]⟩
    · rintro ⟨_, ⟨rfl, rfl⟩, hrest, hposition⟩
      rw [hrest, List.take_left, List.drop_left, ← hposition]

theorem recognizes_word16 : word16.Recognizes (.encoding (fun _ => True) be16) := by
  refine ((recognizes_bytes 2).bind fun bytes => recognizes_pure _).congr fun bytes value => ?_
  constructor
  · rintro ⟨_, front, back, ⟨hlength, rfl⟩, ⟨rfl, rfl⟩, rfl⟩
    exact ⟨trivial, by rw [be16_beValue hlength, List.append_nil]⟩
  · rintro ⟨-, rfl⟩
    exact ⟨be16 value, be16 value, [], ⟨by simp, rfl⟩, ⟨rfl, by simp⟩, by simp⟩

theorem recognizes_word32 : word32.Recognizes (.encoding (fun _ => True) be32) := by
  refine ((recognizes_bytes 4).bind fun bytes => recognizes_pure _).congr fun bytes value => ?_
  constructor
  · rintro ⟨_, front, back, ⟨hlength, rfl⟩, ⟨rfl, rfl⟩, rfl⟩
    exact ⟨trivial, by rw [be32_beValue hlength, List.append_nil]⟩
  · rintro ⟨-, rfl⟩
    exact ⟨be32 value, be32 value, [], ⟨by simp, rfl⟩, ⟨rfl, by simp⟩, by simp⟩

/-- A payload is accepted up to the largest length allowed, and never one that its prefix cannot
count. -/
theorem recognizes_sized (max : Nat) :
    (sized max).Recognizes
      (.encoding (fun payload => payload.length ≤ max ∧ payload.length < 2 ^ 16)
        TpmLink.sized) := by
  have hpayload : ∀ size : UInt16,
      (if max < size.toNat then position >>= fun at_ => fail (.oversized size.toNat (at_ - 2) max)
        else bytes size.toNat : Reader Bytes).Recognizes
        fun bytes value => value.length = size.toNat ∧ value.length ≤ max ∧ bytes = value := by
    intro size
    split
    · refine (recognizes_nothing fun cursor => ⟨_, cursor, rfl⟩).congr fun bytes value => ?_
      simp only [Grammar.nothing, false_iff]
      omega
    · refine (recognizes_bytes size.toNat).congr fun bytes value => ?_
      exact ⟨fun h => ⟨h.1, by omega, h.2⟩, fun h => ⟨h.1, h.2.2⟩⟩
  refine (recognizes_word16.bind hpayload).congr fun bytes value => ?_
  rw [Grammar.encoding_andThen]
  constructor
  · rintro ⟨size, back, -, ⟨hlength, hmax, rfl⟩, rfl⟩
    have hlt := size.toNat_lt
    refine ⟨⟨hmax, by omega⟩, ?_⟩
    rw [TpmLink.sized, hlength, UInt16.ofNat_toNat]
  · rintro ⟨⟨hmax, hlt⟩, rfl⟩
    refine ⟨UInt16.ofNat value.length, value, trivial, ⟨?_, hmax, rfl⟩, rfl⟩
    rw [UInt16.toNat_ofNat_of_lt' hlt]

theorem recognizes_algorithm :
    algorithm.Recognizes (.encoding (fun _ => True) fun algorithm => be16 algorithm.id) := by
  have hbind : algorithm.Recognizes ((Grammar.encoding (fun _ => True) be16).andThen
      fun id bytes algorithm => bytes = [] ∧ algorithm.id = id) := by
    refine recognizes_word16.bind fun id => ?_
    cases hid : Algorithm.ofId? id with
    | none =>
      refine (recognizes_fail _).congr fun bytes algorithm => ?_
      simp only [Grammar.nothing, false_iff]
      rintro ⟨-, rfl⟩
      simp at hid
    | some known =>
      refine (recognizes_pure known).congr fun bytes algorithm => ?_
      have hknown := Algorithm.id_of_ofId? hid
      refine and_congr_right fun _ => ⟨fun h => h ▸ hknown, fun h => ?_⟩
      rw [← h, Algorithm.ofId?_id] at hid
      exact Option.some.inj hid
  refine hbind.congr fun bytes algorithm => ?_
  rw [Grammar.encoding_andThen]
  constructor
  · rintro ⟨id, back, -, ⟨rfl, rfl⟩, rfl⟩
    exact ⟨trivial, List.append_nil _⟩
  · rintro ⟨-, rfl⟩
    exact ⟨algorithm.id, [], trivial, ⟨rfl, rfl⟩, (List.append_nil _).symm⟩

/-- A payload that a reader of its own exhausts. -/
theorem recognizes_within {grammar : Grammar α} (h : reader.Exhausts grammar) (inner : Cursor) :
    (within inner reader).Recognizes fun bytes value => bytes = [] ∧ grammar inner.rest value := by
  intro cursor value after
  have hinner : (reader inner).1 = .ok value ↔ grammar inner.rest value := by
    constructor
    · intro hread
      exact ((h inner value _).mp (Prod.ext hread rfl)).1
    · intro hgrammar
      rw [(h inner value _).mpr ⟨hgrammar, rfl⟩]
  rw [within, Prod.mk.injEq, hinner]
  constructor
  · rintro ⟨hgrammar, rfl⟩
    exact ⟨[], ⟨rfl, hgrammar⟩, rfl, rfl⟩
  · rintro ⟨_, ⟨rfl, hgrammar⟩, hrest, hposition⟩
    exact ⟨hgrammar, by cases cursor; cases after; simp_all⟩

/-! ### Unique reading -/

/-- Where readers tell values apart by their bytes, an encoding in front of other bytes belongs to
one value only. -/
theorem Recognizes.append_inj {valid : α → Prop} {encode : α → Bytes}
    (h : reader.Recognizes (.encoding valid encode)) {a b : α} (ha : valid a) (hb : valid b)
    {s t : Bytes} (heq : encode a ++ s = encode b ++ t) : a = b ∧ s = t := by
  have hfirst := (h ⟨0, encode a ++ s⟩ a ⟨0 + (encode a).length, s⟩).mpr
    ⟨encode a, ⟨ha, rfl⟩, rfl, rfl⟩
  have hsecond := (h ⟨0, encode a ++ s⟩ b ⟨0 + (encode b).length, t⟩).mpr
    ⟨encode b, ⟨hb, rfl⟩, heq, rfl⟩
  rw [hfirst] at hsecond
  simp only [Prod.mk.injEq, Except.ok.injEq, Cursor.mk.injEq] at hsecond
  exact ⟨hsecond.1, hsecond.2.2⟩

end Reader

end TpmLink
