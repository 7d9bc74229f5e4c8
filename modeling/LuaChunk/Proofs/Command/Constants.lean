import LuaChunk.Command.Outcome
import LuaChunk.Proofs.Decode.Truncation
import LuaChunk.Proofs.Listing.Success

/-!
# The constants command

The command either lists the whole chunk or reports why the chunk cannot be read, and its flags only
decide what is said beside that: the summary of the header stands in the log alone, and reading does
not look at its log.
-/

namespace LuaChunk

/-- The command line that lists the constants of a file, with each flag or without it. -/
def constantsLine (verbose header : Bool) (file : Bytes) : List Bytes :=
  (if verbose then [Latin1.bytes "-v"] else []) ++ Latin1.bytes "constants" ::
    (if header then [Latin1.bytes "--header"] else []) ++ [file]

namespace Invocation

/-- A file whose name has no dash in front does not look like an option. -/
lemma not_looksLikeOption {file : Bytes} (plain : file.head? ≠ some dash) :
    looksLikeOption file = false := by
  rw [looksLikeOption, Bool.and_eq_false_iff]
  exact .inl (beq_eq_false_iff_ne.mpr plain)

/-- Nor does its name end the options. -/
lemma ne_terminator {file : Bytes} (plain : file.head? ≠ some dash) :
    (file == terminator) = false := by
  refine beq_eq_false_iff_ne.mpr ?_
  rintro rfl
  exact plain rfl

/-- The command is given the choice about the header and the name of the file. -/
lemma splitHeaderOptions_eq {file : Bytes} (plain : file.head? ≠ some dash) (header : Bool) :
    splitHeaderOptions ((if header then [Latin1.bytes "--header"] else []) ++ [file]) =
      some (if header then some true else none, [file]) := by
  have last : splitHeaderOptions [file] = some (none, [file]) := by
    simp only [splitHeaderOptions, ne_terminator plain, not_looksLikeOption plain,
      Bool.false_eq_true, if_false, Option.map_some]
  cases header with
  | false => exact last
  | true =>
    exact congrArg (Option.map fun later => (some (later.1.getD true), later.2)) last

/-- The options of the program end at the name of the command. -/
lemma splitOptions_eq (verbose : Bool) (rest : List Bytes) :
    splitOptions ((if verbose then [Latin1.bytes "-v"] else []) ++
      Latin1.bytes "constants" :: rest) = some (verbose, Latin1.bytes "constants" :: rest) := by
  cases verbose <;> rfl

/-- A file whose name does not look like an option is the one that is listed. -/
lemma parse?_constantsLine {file : Bytes} (plain : file.head? ≠ some dash)
    (verbose header : Bool) :
    parse? (constantsLine verbose header file) = some ⟨verbose, .constants file header⟩ := by
  have command : command? (Latin1.bytes "constants")
      ((if header then [Latin1.bytes "--header"] else []) ++ [file]) =
        some (.constants file header) := by
    rw [command?, if_pos (beq_self_eq_true _), splitHeaderOptions_eq plain]
    cases header <;> rfl
  rw [parse?, constantsLine, List.append_assoc, List.cons_append, splitOptions_eq]
  dsimp only
  rw [command]
  rfl

end Invocation

/-- The summary of the header changes nothing but the log. -/
lemma readChunk_summary (data : Bytes) :
    (∃ p, ∀ withSummary, ∃ c, readChunk withSummary (.start data) = .ok p c) ∨
      ∃ e, ∀ withSummary, ∃ c, readChunk withSummary (.start data) = .error e c := by
  cases header : readHeader (.start data) with
  | error e c =>
    exact .inr ⟨e, fun withSummary => ⟨c, bind_eq_error_iff.mpr (.inl header)⟩⟩
  | ok h c =>
    -- From there on the two runs differ in their logs alone.
    have scan : Scan (fun _ => True) (h.readProto "") := h.scan_readProto (fun _ => trivial) ""
    obtain ⟨p, done⟩ | ⟨e, done⟩ := scan.whatever_log c
    · refine .inl ⟨p, fun withSummary => ?_⟩
      rw [readChunk_of_readHeader withSummary header]
      exact done _
    · refine .inr ⟨e, fun withSummary => ?_⟩
      rw [readChunk_of_readHeader withSummary header]
      exact done _

/-- A listing that succeeds is put out as a whole. -/
lemma Outcome.list_eq {p : Proto} {t : Transcript}
    (listing : p.listing mainName (.empty Sink.defaultWidth) = .ok () t) (verbose : Bool)
    (readLog : Log) :
    list verbose readLog p =
      ⟨0, t.sink.written.toList, logText verbose (readLog ++ t.log), none⟩ := by
  rw [list, listing]

/-- Each constant that is read holds what its kind can hold and is printed. -/
lemma exists_printChecked_of_readChunk {withSummary : Bool} {data : Bytes} {p : Proto} {c : Cursor}
    (read : readChunk withSummary (.start data) = .ok p c) :
    ∀ f ∈ p.functions, ∀ e ∈ f.body.constants, ∃ constant, e.constantChecked = .ok constant ∧
      ∀ sink, ∃ sink', constant.printChecked sink = .ok () sink' := by
  intro f inside e mem
  obtain ⟨constant, decoded, short⟩ := (isListable_of_readChunk read f inside).exists_constant mem
  obtain ⟨literal, spelt⟩ := Constant.exists_literal_iff.mpr short
  refine ⟨constant, (PoolEntry.constantChecked_eq e).trans decoded, fun sink => ?_⟩
  rw [Constant.printChecked_eq, Constant.print_of_literal spelt]
  exact ⟨_, rfl⟩

/-- The command on a file that exists, with each flag or without it: either the chunk is read and
its listing is put out as a whole, or the chunk is refused and the report stands at the end of the
error stream with nothing put out.  The flags do not decide which, nor what is put out.

No function that can be read has a listing that fails, and each of its constants holds what its kind
can hold and is printed. -/
theorem constants_all_or_nothing {m : Type → Type} [Monad m] [LawfulMonad m]
    (readFile : Bytes → m (Except FileFault Bytes)) {file content : Bytes}
    (found : readFile file = pure (.ok content)) (plain : file.head? ≠ some Invocation.dash) :
    (∀ verbose header, Invocation.parse? (constantsLine verbose header file) =
      some ⟨verbose, .constants file header⟩) ∧
    ((∃ p t, (∃ c, readChunk false (.start content) = .ok p c) ∧
        p.listing mainName (.empty Sink.defaultWidth) = .ok () t ∧
        ∀ verbose header, ∃ errors,
          (Invocation.mk verbose (.constants file header)).outcome readFile =
            pure ⟨0, t.sink.written.toList, errors, none⟩) ∨
      ∃ e, (∃ c, readChunk false (.start content) = .error e c) ∧
        (e.fault.category = .bytecode ∨ e.fault.category = .invalidConstantKind) ∧
        ∀ verbose header, ∃ before,
          (Invocation.mk verbose (.constants file header)).outcome readFile =
            pure ⟨1, [], before ++
              (e.diagnostic (some (Outcome.fileName file))).plainReport ++ "\n", none⟩) ∧
    (∀ withSummary data p c, readChunk withSummary (.start data) = .ok p c →
      (∀ sink, ∃ t, p.listing mainName sink = .ok () t) ∧
        ∀ f ∈ p.functions, ∀ e ∈ f.body.constants, ∃ constant,
          e.constantChecked = .ok constant ∧
            ∀ sink, ∃ sink', constant.printChecked sink = .ok () sink') ∧
    (∀ e : PoolEntry, e.constantChecked = e.constant) ∧
    ∀ c : Constant, c.printChecked = c.print := by
  have run (verbose header : Bool) :
      (Invocation.mk verbose (.constants file header)).outcome readFile =
        pure (Outcome.constants verbose header file content) := by
    simp only [Invocation.outcome, found, pure_bind]
  refine ⟨Invocation.parse?_constantsLine plain, ?_,
    fun _ _ _ _ read =>
      ⟨exists_listing_of_readChunk read, exists_printChecked_of_readChunk read⟩,
    PoolEntry.constantChecked_eq, Constant.printChecked_eq⟩
  obtain ⟨p, read⟩ | ⟨e, failed⟩ := readChunk_summary content
  · obtain ⟨c, plainRead⟩ := read false
    obtain ⟨t, listing⟩ := exists_listing_of_readChunk plainRead (.empty Sink.defaultWidth)
    refine .inl ⟨p, t, ⟨c, plainRead⟩, listing, fun verbose header => ?_⟩
    obtain ⟨c', read'⟩ := read header
    refine ⟨Outcome.logText verbose (c'.log ++ t.log), ?_⟩
    rw [run, Outcome.constants, read']
    exact congrArg pure (Outcome.list_eq listing verbose c'.log)
  · refine .inr ⟨e, failed false, ?_, fun verbose header => ?_⟩
    · cases e.fault <;> simp [ReadFault.category]
    · obtain ⟨c', failed'⟩ := failed header
      refine ⟨Outcome.logText verbose c'.log, ?_⟩
      rw [run, Outcome.constants, failed']

/-- Reads the only file there is. -/
def readOnly (name content : Bytes) (file : Bytes) : Except FileFault Bytes :=
  if file = name then .ok content else .error .notFound

/-- A chunk that is read and one that is refused, each the only file there is. -/
theorem constants_all_or_nothing_tagChunk :
    (∃ (p : Proto) (t : Transcript) (i : Invocation) (errors : String),
      p.listing mainName (.empty Sink.defaultWidth) = .ok () t ∧
      Invocation.parse? (constantsLine true false (Latin1.bytes "t.luac")) = some i ∧
      i.outcome (m := Id) (readOnly (Latin1.bytes "t.luac") (tagChunk 0)) =
        ⟨0, t.sink.written.toList, errors, none⟩) ∧
    ∃ (i : Invocation) (before : String),
      Invocation.parse? (constantsLine false true (Latin1.bytes "t.luac")) = some i ∧
      i.outcome (m := Id) (readOnly (Latin1.bytes "t.luac") (tagChunk 2)) =
        ⟨1, [], before ++ ((ReadError.mk (.illegalTag 2) 40).diagnostic
          (some "t.luac")).plainReport ++ "\n", none⟩ := by
  have plain : (Latin1.bytes "t.luac").head? ≠ some Invocation.dash := by decide
  have found (tag : UInt8) :
      readOnly (Latin1.bytes "t.luac") (tagChunk tag) (Latin1.bytes "t.luac") =
        .ok (tagChunk tag) :=
    if_pos rfl
  have name : Outcome.fileName (Latin1.bytes "t.luac") = "t.luac" := by decide +kernel
  constructor
  · obtain ⟨parsed, ⟨p, t, -, listing, done⟩ | ⟨e, ⟨c, failed⟩, -⟩, -⟩ :=
      constants_all_or_nothing (m := Id) _ (found 0) plain
    · obtain ⟨errors, outcome⟩ := done true false
      exact ⟨p, t, _, errors, listing, parsed true false, outcome⟩
    · have whole : readStop (tagChunk 0) = .ok 57 := by decide +kernel
      obtain ⟨p, c', read, -⟩ := exists_of_readStop_eq_ok whole
      cases read.symm.trans failed
  · have refused : readStop (tagChunk 2) = .error ⟨.illegalTag 2, 40⟩ := by decide +kernel
    obtain ⟨c, failed⟩ := exists_of_readStop_eq_error refused
    obtain ⟨parsed, ⟨p, t, ⟨c', read⟩, -⟩ | ⟨e, ⟨c', failed'⟩, -, done⟩, -⟩ :=
      constants_all_or_nothing (m := Id) _ (found 2) plain
    · cases failed.symm.trans read
    · cases failed.symm.trans failed'
      obtain ⟨before, outcome⟩ := done false true
      rw [name] at outcome
      exact ⟨_, before, parsed false true, outcome⟩

end LuaChunk
