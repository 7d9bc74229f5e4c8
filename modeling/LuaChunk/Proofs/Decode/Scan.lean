import LuaChunk.Proofs.Decode.Recognition

/-!
# Scans

Reading is made of few moves: it takes the next bytes, gives up, looks at its position and keeps a
log.  `Scan` says which steps are made of these alone; such a step goes over a chunk from left to
right.  What it does is decided by the bytes that it passes (`Scan.ok`, `Scan.error`), and its log
only grows (`Scan.withPast`) and is not looked at (`Scan.whatever_log`).
-/

namespace LuaChunk

namespace Cursor

/-- The cursor with other bytes before it. -/
def facing (c : Cursor) (bs : Bytes) : Cursor :=
  { c with rest := bs }

/-- The cursor with entries in front of its log. -/
def withPast (earlier : Log) (c : Cursor) : Cursor :=
  { c with log := earlier ++ c.log }

/-- The bytes between two cursors are unique. -/
lemma Passed.unique {c c' : Cursor} {bs bs' : Bytes} (passed : c.Passed bs c')
    (passed' : c.Passed bs' c') : bs = bs' :=
  List.append_cancel_right (passed.rest.symm.trans passed'.rest)

end Cursor

/-- An error that reports a lack of bytes where the cursor stands. -/
def ReadError.IsEndAt (e : ReadError) (c : Cursor) : Prop :=
  ∃ n, e = ⟨.unexpectedEnd n, c.position⟩ ∧ c.rest.length < n

/-- The steps that go over a chunk from left to right and give up for the given causes only. -/
inductive Scan (causes : ReadFault → Prop) : {α : Type} → ReadM α → Prop where
  | pure {α : Type} (a : α) :
    Scan causes (pure a)
  | bytes (n : Nat) :
    Scan causes (readBytes n)
  | refuse {α : Type} {fault offset} :
    causes fault →
    Scan causes (failAt fault offset : ReadM α)
  | position {α : Type} {f : Nat → ReadM α} :
    (∀ n, Scan causes (f n)) →
    Scan causes (get >>= fun c => f c.position)
  | log (entries : Log) :
    Scan causes (modify fun c => { c with log := c.log ++ entries })
  | enter :
    Scan causes (modify Cursor.entered)
  | bind {α β : Type} {x : ReadM α} {f : α → ReadM β} :
    Scan causes x →
    (∀ a, Scan causes (f a)) →
    Scan causes (x >>= f)
  /-- A step that does what scans do, each of them where fewer than a given number of bytes are
  left. -/
  | limit {α : Type} {x : ReadM α} {y : Nat → ReadM α} :
    (∀ n, Scan causes (y n)) →
    (∀ n c, c.rest.length < n → x c = y n c) →
    Scan causes x

/-- A step followed by another one fails if the first one does or, behind it, the second one. -/
lemma bind_eq_error_iff {α β : Type} {x : ReadM α} {f : α → ReadM β} {c c' : Cursor}
    {e : ReadError} : (x >>= f) c = .error e c' ↔
      x c = .error e c' ∨ ∃ a c₁, x c = .ok a c₁ ∧ f a c₁ = .error e c' := by
  simp only [Bind.bind, EStateM.bind]
  cases x c with
  | ok a c₁ => simp
  | error e' c₁ => simp

/-- Where enough bytes are left the first of them are read. -/
lemma readBytes_append {c : Cursor} {bs t : Bytes} (h : c.rest = bs ++ t) :
    readBytes bs.length c = .ok bs { c with position := c.position + bs.length, rest := t } := by
  have enough : c.rest.hasAtLeast bs.length = true := by
    rw [Bytes.hasAtLeast_iff, h, List.length_append]
    exact Nat.le_add_right _ _
  rw [readBytes, if_pos enough, Cursor.advance, h, List.take_left, List.drop_left]

/-- Where too few bytes are left the cursor stays, and the fault names the number asked for. -/
lemma readBytes_of_lt {c : Cursor} {n : Nat} (h : c.rest.length < n) :
    readBytes n c = .error ⟨.unexpectedEnd n, c.position⟩ c := by
  have short : ¬ c.rest.hasAtLeast n = true := by
    rw [Bytes.hasAtLeast_iff]
    exact Nat.not_le_of_lt h
  rw [readBytes, if_neg short]
  rfl

/-- Reading bytes either passes the first of those left or fails where it stands. -/
lemma readBytes_cases (n : Nat) (c : Cursor) :
    (∃ bs t, bs.length = n ∧ c.rest = bs ++ t ∧
      readBytes n c = .ok bs { c with position := c.position + n, rest := t }) ∨
    c.rest.length < n ∧ readBytes n c = .error ⟨.unexpectedEnd n, c.position⟩ c := by
  rcases Nat.lt_or_ge c.rest.length n with short | enough
  · exact .inr ⟨short, readBytes_of_lt short⟩
  · have parts : c.rest = c.rest.take n ++ c.rest.drop n := (List.take_append_drop n _).symm
    have len : (c.rest.take n).length = n := List.length_take_of_le enough
    have read := readBytes_append parts
    rw [len] at read
    exact .inl ⟨_, _, len, parts, read⟩

namespace Scan

variable {causes : ReadFault → Prop} {α : Type} {x : ReadM α} {c c' : Cursor}

/-- One of the steps that approach a limit does what the limit does from two cursors. -/
lemma exists_agree {y : Nat → ReadM α} (agree : ∀ n c, c.rest.length < n → x c = y n c)
    (c₁ c₂ : Cursor) : ∃ n, x c₁ = y n c₁ ∧ x c₂ = y n c₂ := by
  refine ⟨c₁.rest.length + c₂.rest.length + 1, agree _ _ ?_, agree _ _ ?_⟩
  · omega
  · omega

/-- A scan that succeeds passes some bytes, and does the same wherever these bytes come next. -/
theorem ok (scan : Scan causes x) {a : α} (h : x c = .ok a c') :
    ∃ bs, c.Passed bs c' ∧ ∀ t, x (c.facing (bs ++ t)) = .ok a (c'.facing t) := by
  induction scan generalizing c c' with
  | pure => cases h; exact ⟨[], .of_eq rfl rfl, fun _ => rfl⟩
  | bytes n =>
    obtain ⟨bs, t, rfl, parts, read⟩ | ⟨-, failed⟩ := readBytes_cases n c
    · cases h.symm.trans read
      exact ⟨_, ⟨parts, rfl⟩, fun t => readBytes_append rfl⟩
    · cases h.symm.trans failed
  | refuse => cases h
  | position _ ih => exact ih c.position h
  | log => cases h; exact ⟨[], .of_eq rfl rfl, fun _ => rfl⟩
  | enter => cases h; exact ⟨[], .of_eq rfl rfl, fun _ => rfl⟩
  | bind _ _ ihx ihf =>
    obtain ⟨a₁, c₁, h₁, h₂⟩ := bind_eq_ok_iff.mp h
    obtain ⟨front, passed₁, same₁⟩ := ihx h₁
    obtain ⟨back, passed₂, same₂⟩ := ihf a₁ h₂
    refine ⟨front ++ back, passed₁.trans passed₂, fun t => ?_⟩
    rw [List.append_assoc]
    exact bind_eq_ok_iff.mpr ⟨a₁, _, same₁ (back ++ t), same₂ t⟩
  | limit _ agree ih =>
    obtain ⟨bs, passed, -⟩ := ih _ ((agree _ c (Nat.lt_succ_self _)).symm.trans h)
    -- The bound has to suffice for what stands behind the bytes instead as well.
    refine ⟨bs, passed, fun t => ?_⟩
    obtain ⟨n, here, there⟩ := exists_agree agree c (c.facing (bs ++ t))
    obtain ⟨bs', passed', same⟩ := ih n (here.symm.trans h)
    rw [passed'.unique passed] at same
    exact there.trans (same t)

/-- A scan that fails does so for lack of bytes where it stands, or else fails in the same way
wherever the bytes that it passed come next. -/
theorem error (scan : Scan causes x) {e : ReadError} (h : x c = .error e c') :
    ∃ bs, c.Passed bs c' ∧ (e.IsEndAt c' ∨
      causes e.fault ∧ ∀ t, x (c.facing (bs ++ t)) = .error e (c'.facing t)) := by
  induction scan generalizing c c' with
  | pure => cases h
  | bytes n =>
    obtain ⟨bs, t, len, parts, read⟩ | ⟨short, failed⟩ := readBytes_cases n c
    · cases h.symm.trans read
    · cases h.symm.trans failed
      exact ⟨[], .of_eq rfl rfl, .inl ⟨n, rfl, short⟩⟩
  | refuse cause => cases h; exact ⟨[], .of_eq rfl rfl, .inr ⟨cause, fun _ => rfl⟩⟩
  | position _ ih => exact ih c.position h
  | log => cases h
  | enter => cases h
  | bind scanned _ ihx ihf =>
    obtain h₁ | ⟨a, c₁, h₁, h₂⟩ := bind_eq_error_iff.mp h
    · obtain ⟨bs, passed, ended | ⟨cause, same⟩⟩ := ihx h₁
      · exact ⟨bs, passed, .inl ended⟩
      · exact ⟨bs, passed, .inr ⟨cause, fun t => bind_eq_error_iff.mpr (.inl (same t))⟩⟩
    · obtain ⟨front, passed₁, same₁⟩ := scanned.ok h₁
      obtain ⟨back, passed₂, ended | ⟨cause, same₂⟩⟩ := ihf a h₂
      · exact ⟨front ++ back, passed₁.trans passed₂, .inl ended⟩
      · refine ⟨front ++ back, passed₁.trans passed₂, .inr ⟨cause, fun t => ?_⟩⟩
        rw [List.append_assoc]
        exact bind_eq_error_iff.mpr (.inr ⟨a, _, same₁ (back ++ t), same₂ t⟩)
  | limit _ agree ih =>
    obtain ⟨bs, passed, ended | ⟨cause, -⟩⟩ := ih _ ((agree _ c (Nat.lt_succ_self _)).symm.trans h)
    · exact ⟨bs, passed, .inl ended⟩
    · -- With a greater bound the error could be of another kind, so the kind is decided first.
      by_cases ended : e.IsEndAt c'
      · exact ⟨bs, passed, .inl ended⟩
      · refine ⟨bs, passed, .inr ⟨cause, fun t => ?_⟩⟩
        obtain ⟨n, here, there⟩ := exists_agree agree c (c.facing (bs ++ t))
        obtain ⟨bs', passed', done⟩ := ih n (here.symm.trans h)
        obtain ⟨-, same⟩ := done.resolve_left ended
        rw [passed'.unique passed] at same
        exact there.trans (same t)

/-- Entries in front of the log of a scan stay there and change nothing else. -/
theorem withPast (scan : Scan causes x) (earlier : Log) (c : Cursor) :
    x (c.withPast earlier) = match x c with
      | .ok a c' => .ok a (c'.withPast earlier)
      | .error e c' => .error e (c'.withPast earlier) := by
  induction scan generalizing c with
  | pure => rfl
  | bytes n =>
    obtain ⟨bs, t, rfl, parts, read⟩ | ⟨short, failed⟩ := readBytes_cases n c
    · rw [read, readBytes_append (c := c.withPast earlier) parts]
      rfl
    · rw [failed, readBytes_of_lt (c := c.withPast earlier) short]
      rfl
  | refuse => rfl
  | position _ ih => exact ih c.position c
  | log entries =>
    exact congrArg (fun l => EStateM.Result.ok () { c with log := l }) (List.append_assoc _ _ _)
  | enter => rfl
  | @bind _ _ x f _ _ ihx ihf =>
    have first := ihx c
    simp only [Bind.bind, EStateM.bind]
    cases h : x c with
    | ok a c₁ =>
      rw [h] at first
      rw [first]
      exact ihf a c₁
    | error e c₁ =>
      rw [h] at first
      rw [first]
  | limit _ agree ih =>
    rw [agree _ (c.withPast earlier) (Nat.lt_succ_self _), agree _ c (Nat.lt_succ_self _)]
    exact ih _ c

/-- A scan does not look at its log. -/
theorem whatever_log (scan : Scan causes x) (c : Cursor) :
    (∃ a, ∀ log, ∃ c', x { c with log := log } = .ok a c') ∨
      ∃ e, ∀ log, ∃ c', x { c with log := log } = .error e c' := by
  have same (log : Log) := scan.withPast log { c with log := [] }
  simp only [Cursor.withPast, List.append_nil] at same
  cases first : x { c with log := [] } with
  | ok a c' =>
    rw [first] at same
    exact .inl ⟨a, fun log => ⟨_, same log⟩⟩
  | error e c' =>
    rw [first] at same
    exact .inr ⟨e, fun log => ⟨_, same log⟩⟩

end Scan

end LuaChunk
