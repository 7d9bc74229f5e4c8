import LuaChunk.Decode.Cursor
import LuaChunk.Proofs.Format

/-!
# Steps that recognise a format

A step of reading recognises a format if it succeeds exactly where bytes of the format come next,
yields the value that they store and moves over them and nothing else.  `RecognisesBelow` says so
for the cursors with fewer than a given number of bytes left, which is what a recursion on that
number needs; `RecognisesBelow.bind_of_le` puts steps together.
-/

namespace LuaChunk

/-- The cursor `c'` stands right behind the bytes `bs`, which come next at the cursor `c`. -/
structure Cursor.Passed (c : Cursor) (bs : Bytes) (c' : Cursor) : Prop where
  rest : c.rest = bs ++ c'.rest
  position : c'.position = c.position + bs.length

namespace Cursor.Passed

variable {c c' c'' : Cursor} {bs bs' : Bytes}

/-- Two cursors at the same place have no bytes between them. -/
lemma of_eq (rest : c'.rest = c.rest) (position : c'.position = c.position) : c.Passed [] c' :=
  ⟨rest.symm, position⟩

/-- Bytes are passed one after another. -/
lemma trans (first : c.Passed bs c') (second : c'.Passed bs' c'') : c.Passed (bs ++ bs') c'' := by
  constructor
  · rw [first.rest, second.rest, List.append_assoc]
  · rw [second.position, first.position, List.length_append, Nat.add_assoc]

/-- The bytes left before are those passed and those left after. -/
lemma length_rest (passed : c.Passed bs c') : c.rest.length = bs.length + c'.rest.length := by
  rw [passed.rest, List.length_append]

/-- What is left behind the bytes passed is what stood behind them. -/
lemma rest_eq {t : Bytes} (passed : c.Passed bs c') (h : c.rest = bs ++ t) : c'.rest = t :=
  List.append_cancel_left (passed.rest.symm.trans h)

end Cursor.Passed

namespace Format

/-- Nothing is stored, and the value is known. -/
def nothing {α : Type} (a : α) : Format α := fun x bs =>
  x = a ∧ bs = []

/-- Any one byte. -/
def byte : Format UInt8 := fun b bs =>
  bs = [b]

/-- Any bytes of a given number. -/
def bytes (n : Nat) : Format Bytes := fun data bs =>
  data = bs ∧ bs.length = n

/-- No bytes store anything. -/
def never {α : Type} : Format α := fun _ _ =>
  False

/-- A value is stored as another one from which it is computed. -/
def map {α β : Type} (f : α → β) (F : Format α) : Format β := fun b bs =>
  ∃ a, F a bs ∧ b = f a

/-- A value is stored behind another one, in a format that may depend on it. -/
def andThen {α β : Type} (F : Format α) (G : α → Format β) : Format β := fun b bs =>
  ∃ a front back, F a front ∧ G a b back ∧ bs = front ++ back

end Format

/-- A step followed by another one succeeds if both do. -/
lemma bind_eq_ok_iff {ε σ α β : Type} {x : EStateM ε σ α} {f : α → EStateM ε σ β} {c c' : σ}
    {b : β} : (x >>= f) c = .ok b c' ↔ ∃ a c₁, x c = .ok a c₁ ∧ f a c₁ = .ok b c' := by
  simp only [Bind.bind, EStateM.bind]
  cases x c with
  | ok a c₁ =>
    constructor
    · intro h
      exact ⟨a, c₁, rfl, h⟩
    · rintro ⟨a', c₂, e, h⟩
      cases e
      exact h
  | error e c₁ =>
    constructor
    · intro h
      cases h
    · rintro ⟨a', c₂, e, h⟩
      cases e

/-- Where fewer than `n` bytes are left, a step succeeds exactly if bytes of a format come next; it
yields the value that they store and moves over just these bytes. -/
structure RecognisesBelow {α : Type} (n : Nat) (step : ReadM α) (F : Format α) : Prop where
  sound : ∀ {c a c'}, c.rest.length < n → step c = .ok a c' → ∃ bs, F a bs ∧ c.Passed bs c'
  complete : ∀ {c a bs t}, c.rest.length < n → F a bs → c.rest = bs ++ t →
    ∃ c', step c = .ok a c' ∧ c.Passed bs c'

namespace RecognisesBelow

variable {α β : Type} {n m : Nat} {x : ReadM α} {f : α → ReadM β} {F F' : Format α}
  {G : α → Format β}

/-- There is nothing to recognise where no number of bytes is allowed. -/
lemma zero : RecognisesBelow 0 x F :=
  ⟨fun lt => absurd lt (Nat.not_lt_zero _), fun lt => absurd lt (Nat.not_lt_zero _)⟩

/-- A step recognises what any equivalent format describes. -/
lemma congr (h : RecognisesBelow n x F) (e : ∀ a bs, F a bs ↔ F' a bs) :
    RecognisesBelow n x F' := by
  have same : F = F' := funext fun a => funext fun bs => propext (e a bs)
  rw [← same]
  exact h

/-- A step that only yields a value recognises that nothing is stored. -/
lemma pure (a : α) : RecognisesBelow n (pure a) (.nothing a) := by
  constructor
  · intro c a' c' _ h
    cases h
    exact ⟨[], ⟨rfl, rfl⟩, .of_eq rfl rfl⟩
  · rintro c a' bs t _ ⟨rfl, rfl⟩ _
    exact ⟨c, rfl, .of_eq rfl rfl⟩

/-- A change of the state that leaves the place alone takes no bytes. -/
lemma modify {g : Cursor → Cursor} (rest : ∀ c, (g c).rest = c.rest)
    (position : ∀ c, (g c).position = c.position) :
    RecognisesBelow n (modify g : ReadM Unit) (.nothing ()) := by
  constructor
  · intro c a' c' _ h
    cases h
    exact ⟨[], ⟨rfl, rfl⟩, .of_eq (rest c) (position c)⟩
  · rintro c a' bs t _ ⟨rfl, rfl⟩ _
    exact ⟨g c, rfl, .of_eq (rest c) (position c)⟩

/-- A failure recognises the format of no bytes. -/
lemma failAt (fault : ReadFault) (offset : Int) :
    RecognisesBelow n (failAt fault offset) (.never : Format α) := by
  constructor
  · intro c a c' _ h
    cases h
  · intro c a bs t _ h
    cases h

/-- A condition on what is known takes no bytes. -/
lemma require (holds : Bool) (fault : ReadFault) (offset : Int) :
    RecognisesBelow n (require holds fault offset) fun _ bs => holds = true ∧ bs = [] := by
  cases holds with
  | false =>
    refine (failAt fault offset).congr fun a bs => ?_
    exact ⟨False.elim, fun h => Bool.false_ne_true h.1⟩
  | true =>
    refine (pure ()).congr fun a bs => ?_
    exact ⟨fun h => ⟨rfl, h.2⟩, fun h => ⟨rfl, h.2⟩⟩

/-- Reading a byte recognises any byte. -/
lemma readByte : RecognisesBelow n readByte .byte := by
  constructor
  · intro c b c' _ h
    unfold LuaChunk.readByte at h
    split at h
    case h_1 b' rest e =>
      cases h
      refine ⟨[b], rfl, ?_, rfl⟩
      rw [e, Cursor.advance, e]
      rfl
    case h_2 => cases h
  · rintro c b bs t _ rfl h
    refine ⟨c.advance 1, ?_, ?_, rfl⟩
    · unfold LuaChunk.readByte
      rw [h]
      rfl
    · rw [h, Cursor.advance, h]
      rfl

/-- Reading bytes recognises any bytes of their number. -/
lemma readBytes (k : Nat) : RecognisesBelow n (readBytes k) (.bytes k) := by
  constructor
  · intro c data c' _ h
    unfold LuaChunk.readBytes at h
    split at h
    case isTrue enough =>
      cases h
      have len : (c.rest.take k).length = k :=
        List.length_take_of_le (Bytes.hasAtLeast_iff.mp enough)
      refine ⟨c.rest.take k, ⟨rfl, len⟩, ?_, ?_⟩
      · exact (List.take_append_drop k c.rest).symm
      · rw [len]
        rfl
    case isFalse => cases h
  · rintro c data bs t _ ⟨rfl, rfl⟩ h
    have enough : c.rest.hasAtLeast data.length = true := by
      rw [Bytes.hasAtLeast_iff, h, List.length_append]
      exact Nat.le_add_right _ _
    refine ⟨c.advance data.length, ?_, ?_, rfl⟩
    · unfold LuaChunk.readBytes
      rw [if_pos enough, h, List.take_left]
    · rw [Cursor.advance, h, List.drop_left]

/-- A step that takes at least `k` bytes leaves that many less to what follows it, which may rely on
what the format says of the value. -/
lemma bind_of_le {k : Nat} (long : ∀ {a bs}, F a bs → k ≤ bs.length)
    (hx : RecognisesBelow (n + k) x F)
    (hf : ∀ {a bs}, F a bs → RecognisesBelow n (f a) (G a)) :
    RecognisesBelow (n + k) (x >>= f) (F.andThen G) := by
  constructor
  · intro c b c' lt h
    obtain ⟨a, c₁, h₁, h₂⟩ := bind_eq_ok_iff.mp h
    obtain ⟨front, stored₁, passed₁⟩ := hx.sound lt h₁
    have left := passed₁.length_rest
    have taken := long stored₁
    obtain ⟨back, stored₂, passed₂⟩ := (hf stored₁).sound (by omega) h₂
    exact ⟨front ++ back, ⟨a, front, back, stored₁, stored₂, rfl⟩, passed₁.trans passed₂⟩
  · rintro c b bs t lt ⟨a, front, back, stored₁, stored₂, rfl⟩ h
    rw [List.append_assoc] at h
    obtain ⟨c₁, h₁, passed₁⟩ := hx.complete lt stored₁ h
    have left := passed₁.length_rest
    have taken := long stored₁
    obtain ⟨c', h₂, passed₂⟩ := (hf stored₁).complete (by omega) stored₂ (passed₁.rest_eq h)
    exact ⟨c', bind_eq_ok_iff.mpr ⟨a, c₁, h₁, h₂⟩, passed₁.trans passed₂⟩

/-- Two steps one after the other recognise one format behind the other. -/
lemma bind (hx : RecognisesBelow n x F) (hf : ∀ a, RecognisesBelow n (f a) (G a)) :
    RecognisesBelow n (x >>= f) (F.andThen G) :=
  bind_of_le (k := 0) (fun _ => Nat.zero_le _) hx fun {a _} _ => hf a

/-- A step whose result is passed through a function recognises the images. -/
lemma map (hx : RecognisesBelow n x F) (g : α → β) :
    RecognisesBelow n (x >>= fun a => Pure.pure (g a)) (F.map g) := by
  refine (hx.bind fun a => .pure (g a)).congr fun b bs => ?_
  constructor
  · rintro ⟨a, front, back, stored, ⟨rfl, rfl⟩, rfl⟩
    rw [List.append_nil]
    exact ⟨a, stored, rfl⟩
  · rintro ⟨a, stored, rfl⟩
    exact ⟨a, bs, [], stored, ⟨rfl, rfl⟩, (List.append_nil bs).symm⟩

/-- A value that is computed from bytes of a given number. -/
lemma readBytes_map {k : Nat} {g : Bytes → α} (e : ∀ a bs, F a bs ↔ bs.length = k ∧ a = g bs) :
    RecognisesBelow n (LuaChunk.readBytes k >>= fun data => Pure.pure (g data)) F := by
  refine ((readBytes k).map g).congr fun a bs => ?_
  rw [e]
  constructor
  · rintro ⟨data, ⟨rfl, len⟩, rfl⟩
    exact ⟨len, rfl⟩
  · rintro ⟨len, rfl⟩
    exact ⟨bs, ⟨rfl, len⟩, rfl⟩

/-- What takes no bytes and yields nothing does not matter to what follows. -/
lemma nothing_bind {x : ReadM Unit} {f : Unit → ReadM β} {F : Format β}
    (hx : RecognisesBelow n x (.nothing ())) (hf : RecognisesBelow n (f ()) F) :
    RecognisesBelow n (x >>= f) F := by
  refine (hx.bind fun _ => hf).congr fun b bs => ?_
  constructor
  · rintro ⟨_, front, back, ⟨-, rfl⟩, stored, rfl⟩
    exact stored
  · intro stored
    exact ⟨(), [], bs, ⟨rfl, rfl⟩, stored, rfl⟩

/-- A look at the cursor does not matter to what recognises the same format from every cursor. -/
lemma get_bind {f : Cursor → ReadM β} {F : Format β} (hf : ∀ c, RecognisesBelow n (f c) F) :
    RecognisesBelow n (get >>= f) F :=
  ⟨fun {c _ _} lt h => (hf c).sound lt h, fun {c _ _ _} lt stored h => (hf c).complete lt stored h⟩

/-- A repeated step recognises as many values one after another. -/
lemma readTimes (hx : RecognisesBelow n x F) (k : Nat) :
    RecognisesBelow n (readTimes x k) fun xs bs => xs.length = k ∧ Each F xs bs := by
  induction k with
  | zero =>
    refine (pure []).congr fun xs bs => ?_
    constructor
    · rintro ⟨rfl, rfl⟩
      exact ⟨rfl, .nil⟩
    · rintro ⟨len, each⟩
      cases each with
      | nil => exact ⟨rfl, rfl⟩
      | cons => cases len
  | succ k ih =>
    refine (hx.bind fun a => ih.map (a :: ·)).congr fun xs bs => ?_
    constructor
    · rintro ⟨a, front, back, first, ⟨as, ⟨len, others⟩, rfl⟩, rfl⟩
      exact ⟨congrArg Nat.succ len, .cons first others⟩
    · rintro ⟨len, each⟩
      cases each with
      | nil => cases len
      | cons first others =>
        exact ⟨_, _, _, first, ⟨_, ⟨Nat.succ.inj len, others⟩, rfl⟩, rfl⟩

end RecognisesBelow

end LuaChunk
