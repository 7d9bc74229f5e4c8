import LuaChunk.Proofs.Listing.Likeness
import LuaChunk.Proofs.Listing.LineFeeds
import LuaChunk.Proofs.Literal.Unquote

/-!
# What a listing tells

Two trees of functions have the same listing exactly if they look alike: they have the same shape,
and functions at the same place have the same lines of definition, the same source name, where none
and a question mark are the same, and constants that look alike (`Proto.listing_eq_iff`).  Strings
look alike if they are equal, and numbers if their texts are.  Where no source name has a line feed,
the lines of a listing can be told apart, and a line is read from its end up to the source name.
-/

namespace LuaChunk

section

variable {α : Type} {c : α} {a a' x x' : List α}

/-- A list is cut in one way in front of the first of its members that are equal to a given one. -/
lemma append_cons_inj_first (ha : c ∉ a) (ha' : c ∉ a') (same : a ++ c :: x = a' ++ c :: x') :
    a = a' ∧ x = x' := by
  induction a generalizing a' with
  | nil =>
    cases a' with
    | nil => exact ⟨rfl, (List.cons.inj same).2⟩
    | cons d a' =>
      cases (List.cons.inj same).1
      exact absurd List.mem_cons_self ha'
  | cons d a ih =>
    cases a' with
    | nil =>
      cases (List.cons.inj same).1
      exact absurd List.mem_cons_self ha
    | cons d' a' =>
      obtain ⟨rfl, others⟩ := List.cons.inj same
      obtain ⟨rfl, behind⟩ := ih (mt (List.mem_cons_of_mem d) ha) (mt (List.mem_cons_of_mem d) ha')
        others
      exact ⟨rfl, behind⟩

/-- A list is cut in one way behind the last of its members that are equal to a given one. -/
lemma append_cons_inj_last (hx : c ∉ x) (hx' : c ∉ x') (same : a ++ c :: x = a' ++ c :: x') :
    a = a' ∧ x = x' := by
  have reversed : x.reverse ++ c :: a.reverse = x'.reverse ++ c :: a'.reverse := by
    simpa using congrArg List.reverse same
  obtain ⟨tail, front⟩ := append_cons_inj_first (mt List.mem_reverse.mp hx)
    (mt List.mem_reverse.mp hx') reversed
  exact ⟨List.reverse_inj.mp front, List.reverse_inj.mp tail⟩

end

namespace Listing

/-- What follows the source name on the line of a function. -/
def figures (body : FunctionBody) (nested : Nat) : List Char :=
  (toString body.firstLine).toList ++ ',' :: ((toString body.lastLine).toList ++ '>' :: ' ' ::
    '(' :: ((count body.constants.length "constant").toList ++ ',' :: ' ' ::
      ((count nested "function").toList ++ [')'])))

/-- The line of a function has its source name between the name and the figures. -/
lemma toList_fullHeading (name : String) (body : FunctionBody) (nested : Nat) :
    (fullHeading name body nested).toList = ("function " ++ name ++ " <").toList ++
      ((shownSource body.source).toList ++ ':' :: figures body nested) := by
  unfold fullHeading headingText figures
  simp only [String.toList_append, List.append_assoc]
  rfl

/-- A number of things is its digits, a blank and the noun. -/
lemma toList_count (n : Nat) (noun : String) :
    (count n noun).toList =
      (toString n).toList ++ ' ' :: (noun ++ if n = 1 then "" else "s").toList := by
  rw [count]
  simp only [String.toList_append, List.append_assoc]
  rfl

/-- The number of things is told by its digits. -/
lemma count_append_inj {n n' : Nat} {noun : String} {x x' : List Char}
    (same : (count n noun).toList ++ x = (count n' noun).toList ++ x') : n = n' ∧ x = x' := by
  rw [toList_count, toList_count, List.append_assoc, List.append_assoc, List.cons_append,
    List.cons_append] at same
  obtain ⟨digits, others⟩ := append_cons_inj_first
    ((AreNumeric.toString_nat n).not_mem (by decide))
    ((AreNumeric.toString_nat n').not_mem (by decide)) same
  obtain rfl := Nat.repr_inj.mp (String.toList_inj.mp digits)
  exact ⟨rfl, List.append_cancel_left others⟩

/-- No figure has a colon in it. -/
lemma colon_not_mem_figures (body : FunctionBody) (nested : Nat) : ':' ∉ figures body nested := by
  have number (n : Nat) := (AreNumeric.toString_nat n).not_mem (c := ':') (by decide)
  have line (n : Int) := (AreNumeric.toString_int n).not_mem (c := ':') (by decide)
  have plural (n : Nat) : ':' ∉ (if n = 1 then "" else "s").toList := by split <;> decide
  simp only [figures, toList_count, String.toList_append, List.mem_append, List.mem_cons, number,
    line, plural, false_or, or_false]
  decide

/-- The figures tell the lines of definition and how many constants and functions there are. -/
lemma figures_inj {body body' : FunctionBody} {nested nested' : Nat}
    (same : figures body nested = figures body' nested') :
    body.firstLine = body'.firstLine ∧ body.lastLine = body'.lastLine ∧
      body.constants.length = body'.constants.length ∧ nested = nested' := by
  have line (n : Int) (c : Char) (other : isNumeric c = false) :=
    (AreNumeric.toString_int n).not_mem other
  obtain ⟨first, behind⟩ :=
    append_cons_inj_first (line _ ',' (by decide)) (line _ ',' (by decide)) same
  obtain ⟨last, behind⟩ :=
    append_cons_inj_first (line _ '>' (by decide)) (line _ '>' (by decide)) behind
  obtain ⟨constants, behind⟩ := count_append_inj (List.cons.inj (List.cons.inj behind).2).2
  obtain ⟨functions, -⟩ := count_append_inj (List.cons.inj (List.cons.inj behind).2).2
  exact ⟨Int.repr_inj.mp (String.toList_inj.mp first), Int.repr_inj.mp (String.toList_inj.mp last),
    constants, functions⟩

/-- The line of a function tells the figures and what is shown of the source name. -/
lemma fullHeading_inj {name : String} {body body' : FunctionBody} {nested nested' : Nat}
    (same : fullHeading name body nested = fullHeading name body' nested') :
    shownSource body.source = shownSource body'.source ∧ body.firstLine = body'.firstLine ∧
      body.lastLine = body'.lastLine ∧ body.constants.length = body'.constants.length ∧
      nested = nested' := by
  have behind := congrArg String.toList same
  rw [toList_fullHeading, toList_fullHeading, List.append_cancel_left_eq] at behind
  -- The source name may have any sign in it, but what follows it has no colon.
  obtain ⟨source, others⟩ := append_cons_inj_last (colon_not_mem_figures body nested)
    (colon_not_mem_figures body' nested') behind
  exact ⟨String.toList_inj.mp source, figures_inj others⟩

/-- The kind of constant that a text shows. -/
def kindShown (text : Bytes) : Kind :=
  match text.head? with
  | some 0x22 => .string
  | some 0x6E => .nil
  | some 0x66 | some 0x74 => .boolean
  | _ => .number

/-- A text of digits and signs shows a number. -/
lemma kindShown_of_bounds {text : Bytes} (h : ∀ b ∈ text, 0x2B ≤ b ∧ b ≤ 0x65) :
    kindShown text = .number := by
  cases text with
  | nil => rfl
  | cons b rest =>
    have bounds := h b List.mem_cons_self
    unfold kindShown
    split
    case h_5 => rfl
    all_goals
      rename_i first
      cases first
      exact absurd bounds (by decide)

/-- A number is shown as its text. -/
lemma shown_number_eq_ok_iff {v : Number} {bytes : Bytes} :
    shown (.number v) = .ok bytes ↔ ∃ text, v.text = .ok text ∧ bytes = Latin1.bytes text := by
  rw [← Constant.literal_number_eq_ok_iff]
  constructor
  · intro seen
    obtain ⟨_, literal, rfl⟩ := exists_literal_of_shown seen
    rw [literal]
    exact congrArg Except.ok (List.append_nil _).symm
  · intro literal
    rw [shown_of_literal literal]
    exact congrArg Except.ok (List.append_nil _)

/-- A string is shown as its literal, with a mark behind an identifier. -/
lemma shown_string_eq (data : Bytes) :
    shown (.string data) = .ok (quoted data ++
      if (Constant.string data).isIdentifier then Latin1.bytes identifierMark else []) :=
  rfl

/-- What is shown of a constant tells its kind. -/
lemma kindShown_of_shown {c : Constant} {text : Bytes} (seen : shown c = .ok text) :
    kindShown text = c.kind := by
  cases c with
  | nil =>
    obtain rfl := Except.ok.inj seen
    rfl
  | boolean b =>
    obtain rfl := Except.ok.inj seen
    cases b <;> rfl
  | number v =>
    obtain ⟨digits, spelled, rfl⟩ := shown_number_eq_ok_iff.mp seen
    exact kindShown_of_bounds fun b mem => (Number.areNumeric_text spelled).bounds_of_mem mem
  | string data =>
    obtain rfl := Except.ok.inj seen
    rfl

/-- What is shown of a string tells the string. -/
lemma unquote_of_shown {data text : Bytes} (seen : shown (.string data) = .ok text) :
    unquote text = some (data,
      if (Constant.string data).isIdentifier then Latin1.bytes identifierMark else []) := by
  rw [shown_string_eq] at seen
  obtain rfl := Except.ok.inj seen
  exact unquote_quoted data _

/-- Constants of which the same is shown look alike. -/
lemma looksLike_of_shown {c c' : Constant} {text : Bytes} (seen : shown c = .ok text)
    (seen' : shown c' = .ok text) : c.LooksLike c' := by
  -- The first byte tells the kind, so only constants of the same kind are left to compare.
  have kinds : c.kind = c'.kind := by rw [← kindShown_of_shown seen, kindShown_of_shown seen']
  cases c with
  | nil =>
    cases c' with
    | nil => exact .nil
    | _ => cases kinds
  | boolean b =>
    cases c' with
    | boolean b' =>
      have inj : ∀ b b', shown (.boolean b) = shown (.boolean b') → b = b' := by decide
      cases inj b b' (seen.trans seen'.symm)
      exact .boolean b
    | _ => cases kinds
  | number v =>
    cases c' with
    | number v' =>
      obtain ⟨digits, spelled, rfl⟩ := shown_number_eq_ok_iff.mp seen
      obtain ⟨digits', spelled', same⟩ := shown_number_eq_ok_iff.mp seen'
      obtain rfl := Latin1.bytes_inj (Number.isText_text spelled) (Number.isText_text spelled') same
      exact .number (spelled.trans spelled'.symm)
    | _ => cases kinds
  | string data =>
    cases c' with
    | string data' =>
      obtain ⟨rfl, -⟩ := Prod.mk.inj
        (Option.some.inj ((unquote_of_shown seen).symm.trans (unquote_of_shown seen')))
      exact .string data
    | _ => cases kinds

section

variable {width level : Int} {name : String} {rest rest' : List Bytes}

/-- The texts of lines, each with its indentation. -/
def texts (ls : List Line) : List Bytes :=
  ls.map Line.indented

/-- The texts of lines are those of their parts. -/
lemma texts_append (ls ls' : List Line) : texts (ls ++ ls') = texts ls ++ texts ls' :=
  List.map_append

/-- Lines without line feeds in them can be told apart. -/
lemma texts_of_written {ls ls' : List Line} (h : ∀ text ∈ texts ls, 0x0A ∉ text)
    (h' : ∀ text ∈ texts ls', 0x0A ∉ text) (same : written ls = written ls') :
    texts ls = texts ls' := by
  induction ls generalizing ls' with
  | nil =>
    cases ls' with
    | nil => rfl
    | cons l' ls' => simp [written] at same
  | cons l ls ih =>
    cases ls' with
    | nil => simp [written] at same
    | cons l' ls' =>
      rw [texts, List.map_cons, List.forall_mem_cons] at h h'
      rw [written_cons, written_cons, List.append_assoc, List.append_assoc] at same
      obtain ⟨first, others⟩ := append_cons_inj_first h.1 h'.1 same
      rw [texts, texts, List.map_cons, List.map_cons, first]
      exact congrArg _ (ih h.2 h'.2 others)

/-- A line that can be written is its indentation and its text. -/
lemma indented_of_content {l : Line} {text : Bytes} (content : l.content = .ok text) :
    l.indented = List.replicate l.level.toNat 0x20 ++ text := by
  rw [Line.indented, content]
  rfl

/-- The line of an entry that can be written shows a constant. -/
lemma exists_shown_of_writable {n : Nat} {e : PoolEntry}
    (writable : (entryLine level n e).IsWritable) :
    ∃ c text, e.constant = .ok c ∧ shown c = .ok text := by
  obtain ⟨c, constant, short⟩ := isWritable_entryLine.mp writable
  obtain ⟨literal, spelt⟩ := Constant.exists_literal_iff.mpr short
  exact ⟨c, _, constant, shown_of_literal spelt⟩

/-- Entries that have the same line look alike. -/
lemma looksLike_of_entryLine {n : Nat} {e e' : PoolEntry}
    (writable : (entryLine level n e).IsWritable) (writable' : (entryLine level n e').IsWritable)
    (same : (entryLine level n e).indented = (entryLine level n e').indented) :
    e.LooksLike e' := by
  obtain ⟨c, text, constant, seen⟩ := exists_shown_of_writable writable
  obtain ⟨c', text', constant', seen'⟩ := exists_shown_of_writable writable'
  rw [entryLine_of_ok constant seen, entryLine_of_ok constant' seen'] at same
  obtain rfl := List.append_cancel_left (List.append_cancel_left same)
  exact ⟨c, c', constant, constant', looksLike_of_shown seen seen'⟩

/-- The lines of entries tell the entries, whatever lines follow them. -/
lemma looksLike_of_entryLines {es es' : List PoolEntry} {n : Nat} (number : es.length = es'.length)
    (writable : ∀ l ∈ entryLines level n es, l.IsWritable)
    (writable' : ∀ l ∈ entryLines level n es', l.IsWritable)
    (same : texts (entryLines level n es) ++ rest = texts (entryLines level n es') ++ rest') :
    List.Forall₂ PoolEntry.LooksLike es es' ∧ rest = rest' := by
  induction es generalizing es' n with
  | nil =>
    obtain rfl := List.length_eq_zero_iff.mp number.symm
    exact ⟨.nil, same⟩
  | cons e es ih =>
    cases es' with
    | nil => cases number
    | cons e' es' =>
      rw [entryLines, List.forall_mem_cons] at writable writable'
      obtain ⟨first, others⟩ := List.cons.inj same
      obtain ⟨alike, behind⟩ := ih (Nat.succ.inj number) writable.2 writable'.2 others
      exact ⟨.cons (looksLike_of_entryLine writable.1 writable'.1 first) alike, behind⟩

/-- The lines of nested functions tell the functions, whatever lines follow them. -/
lemma looksLike_of_linesOf {ps ps' : List Proto} {i : Nat}
    (each : ∀ p ∈ ps, ∀ (q : Proto) (name : String) (rest rest' : List Bytes),
      (∀ l ∈ lines width level name p, l.IsWritable) →
      (∀ l ∈ lines width level name q, l.IsWritable) →
      texts (lines width level name p) ++ rest = texts (lines width level name q) ++ rest' →
      p.LooksLike q ∧ rest = rest')
    (number : ps.length = ps'.length)
    (writable : ∀ l ∈ linesOf width level name i ps, l.IsWritable)
    (writable' : ∀ l ∈ linesOf width level name i ps', l.IsWritable)
    (same : texts (linesOf width level name i ps) ++ rest =
      texts (linesOf width level name i ps') ++ rest') :
    List.Forall₂ Proto.LooksLike ps ps' ∧ rest = rest' := by
  induction ps generalizing ps' i with
  | nil =>
    obtain rfl := List.length_eq_zero_iff.mp number.symm
    exact ⟨.nil, same⟩
  | cons p ps ih =>
    cases ps' with
    | nil => cases number
    | cons p' ps' =>
      rw [linesOf, List.forall_mem_append] at writable writable'
      rw [List.forall_mem_cons] at each
      rw [linesOf, linesOf, texts_append, texts_append, List.append_assoc, List.append_assoc]
        at same
      obtain ⟨first, others⟩ := each.1 p' _ _ _ writable.1 writable'.1 same
      obtain ⟨alike, behind⟩ := ih each.2 (Nat.succ.inj number) writable.2 writable'.2 others
      exact ⟨.cons first alike, behind⟩

/-- The lines of a function tell where they end, whatever lines follow them. -/
lemma looksLike_of_lines {p q : Proto} (writable : ∀ l ∈ lines width level name p, l.IsWritable)
    (writable' : ∀ l ∈ lines width level name q, l.IsWritable)
    (same : texts (lines width level name p) ++ rest = texts (lines width level name q) ++ rest') :
    p.LooksLike q ∧ rest = rest' := by
  induction p using Proto.nestedInduction generalizing q name level rest rest' with
  | mk body nested ih =>
    obtain ⟨body', nested'⟩ := q
    rw [lines, List.forall_mem_cons, List.forall_mem_append] at writable writable'
    obtain ⟨described, constants, functions⟩ := writable
    obtain ⟨described', constants', functions'⟩ := writable'
    obtain ⟨first, others⟩ := List.cons.inj same
    obtain ⟨-, isText, content⟩ := content_headingLine described
    obtain ⟨-, isText', content'⟩ := content_headingLine described'
    rw [indented_of_content content, indented_of_content content'] at first
    obtain ⟨source, firstLine, lastLine, number, count⟩ :=
      fullHeading_inj (Latin1.bytes_inj isText isText' (List.append_cancel_left first))
    -- The first line has told how many lines of constants and how many functions follow.
    have inside :
        texts (entryLines (level + width) 1 body.constants) ++
            (texts (linesOf width (level + width) name 0 nested) ++ rest) =
          texts (entryLines (level + width) 1 body'.constants) ++
            (texts (linesOf width (level + width) name 0 nested') ++ rest') := by
      rw [← List.append_assoc, ← List.append_assoc, ← texts_append, ← texts_append]
      exact others
    obtain ⟨pool, behind⟩ := looksLike_of_entryLines number constants constants' inside
    obtain ⟨alike, behind⟩ := looksLike_of_linesOf
      (fun p mem q name rest rest' => ih p mem) count functions functions' behind
    exact ⟨.mk ⟨shownSource_eq_iff.mp source, firstLine, lastLine, pool⟩ alike, behind⟩

end

/-- Where no source name has a line feed, no line has one. -/
lemma lineFeed_not_mem {p : Proto} (unbroken : ∀ f ∈ p.functions, '\n' ∉ f.body.source.toList)
    (writable : ∀ l ∈ lines width level mainName p, l.IsWritable) :
    ∀ text ∈ texts (lines width level mainName p), 0x0A ∉ text := by
  have each : ∀ l ∈ lines width level mainName p, l.IsWritable → l.indented.count 0x0A = 0 := by
    refine forall_lines (fun l => l.IsWritable → l.indented.count 0x0A = 0)
      (fun name => name.toList.count '\n' = 0) ?_ ?_ ?_ (by decide)
    · intro f inside level name plain writable
      rw [lineFeeds_headingLine plain writable]
      exact List.count_eq_zero_of_not_mem (unbroken f inside)
    · intro f inside e mem level n _
      exact (areShown_entryLine level n e).count_eq_zero
    · intro name i plain
      rw [count_nestedName, plain]
  intro text mem
  obtain ⟨l, inside, rfl⟩ := List.mem_map.mp mem
  exact List.count_eq_zero.mp (each l inside (writable l inside))

end Listing

namespace Proto

/-- Functions without line feeds in their source names have the same listing exactly if they look
alike. -/
theorem listing_eq_iff {p q : Proto}
    (hp : ∀ f ∈ p.functions, f.body.IsListable ∧ '\n' ∉ f.body.source.toList)
    (hq : ∀ f ∈ q.functions, f.body.IsListable ∧ '\n' ∉ f.body.source.toList) (width : Int) :
    ∃ t t', p.listing mainName (.empty width) = .ok () t ∧
      q.listing mainName (.empty width) = .ok () t' ∧
      (t.sink.written = t'.sink.written ↔ p.LooksLike q) := by
  have named : Latin1.IsText mainName := by decide
  obtain ⟨t, listed⟩ :=
    succeeds_function (fun f inside => (hp f inside).1) named ⟨.empty width, []⟩
  obtain ⟨t', listed'⟩ :=
    succeeds_function (fun f inside => (hq f inside).1) named ⟨.empty width, []⟩
  refine ⟨t, t', listed, listed', ?_⟩
  obtain ⟨writable, written⟩ := sink_of_listing rfl listed
  obtain ⟨writable', written'⟩ := sink_of_listing rfl listed'
  constructor
  · intro same
    rw [← Array.toList_inj, written, written', Sink.toList_written_append,
      Sink.toList_written_append] at same
    have texts := Listing.texts_of_written
      (Listing.lineFeed_not_mem (fun f inside => (hp f inside).2) writable)
      (Listing.lineFeed_not_mem (fun f inside => (hq f inside).2) writable') same
    have ends := congrArg (· ++ ([] : List Bytes)) texts
    exact (Listing.looksLike_of_lines writable writable' ends).1
  · intro alike
    rw [Listing.function_of_looksLike alike, listed'] at listed
    cases listed
    rfl

/-- A function without a source name, one string of which reads like a line of a listing. -/
def listedSample : Proto where
  body :=
    { (default : FunctionBody) with
      lastLine := -1
      constants := [.boolean 1, .number (.whole 5), .string (Latin1.bytes "a\"\n4       nil")] }
  nested := [default]

/-- A function that looks like it. -/
def listedLookalike : Proto where
  body :=
    { listedSample.body with
      source := "?", stackSize := 7
      constants := [.boolean 2, .number (.double ⟨0x4014000000000000⟩),
        .string (Latin1.bytes "a\"\n4       nil")] }
  nested := [default]

/-- The two functions look alike. -/
lemma listedSample_looksLike : listedSample.LooksLike listedLookalike := by
  have empty : (default : FunctionBody).LooksLike default := ⟨.inl rfl, rfl, rfl, .nil⟩
  refine .mk ⟨.inr (by decide), rfl, rfl, .cons ?_ (.cons ?_ (.cons ?_ .nil))⟩
    (.cons (.mk empty .nil) .nil)
  · exact ⟨_, _, rfl, rfl, .boolean true⟩
  · exact ⟨_, _, rfl, rfl, .number (by decide +kernel)⟩
  · exact ⟨_, _, rfl, rfl, .string _⟩

/-- The two functions have the same listing, and a function without constants has another one. -/
theorem listing_eq_iff_listedSample :
    (∃ t t', listedSample.listing mainName (.empty 2) = .ok () t ∧
      listedLookalike.listing mainName (.empty 2) = .ok () t' ∧ t.sink.written = t'.sink.written) ∧
    ∃ t t', listedSample.listing mainName (.empty 2) = .ok () t ∧
      (default : Proto).listing mainName (.empty 2) = .ok () t' ∧
      t.sink.written ≠ t'.sink.written := by
  constructor
  · obtain ⟨t, t', lists, lists', same⟩ :=
      listing_eq_iff (p := listedSample) (q := listedLookalike) (by decide +kernel)
        (by decide +kernel) 2
    exact ⟨t, t', lists, lists', same.mpr listedSample_looksLike⟩
  · obtain ⟨t, t', lists, lists', same⟩ :=
      listing_eq_iff (p := listedSample) (q := default) (by decide +kernel)
        (by decide +kernel) 2
    refine ⟨t, t', lists, lists', fun written => ?_⟩
    cases same.mp written with
    | mk _ nested => cases nested

end Proto

end LuaChunk
