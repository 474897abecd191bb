import TableLexer.Files.Tables
import TableLexer.Proofs.Binary.RoundTrip
import TableLexer.Proofs.Document.Fields

/-! Saving and loading as JSON. A document of tables is read member by member, as it is spelled, and
the parts that are found are those it was made from. -/

set_option autoImplicit false

namespace TableLexer.Document

open Json Json.Reader

variable {rest : List UInt8}

theorem readIntegers_reads {entry : Field × Array Int} (typed : OfType entry) :
    Reads (readIntegers (integerType entry.1)) ((foundMember entry).2.write ++ rest) entry.2
      rest := by
  have each : ∀ n ∈ entry.2.toList, ∀ left, Closed left →
      Reads (do orStop (integerOf (integerType entry.1) (← head))) ((ofInt n).write ++ left) n
        left := by
    intro n member left closed
    obtain ⟨low, high⟩ := typed.fits n member
    refine .bind (.head_integer low high closed) ?_
    rw [integerOf_eq (typed n member).1 (typed n member).2]
    exact .orStop n
  refine .bind .head_array ?_
  simpa using Reads.integers each

theorem captureStep_reads {entry : Field × Array Int} (typed : OfType entry)
    {isFirst : Bool} {found : Found}
    (next : found.field? captureFieldList entry.1.name = .ok (some entry.1)) :
    Reads (captureStep isFirst found)
      (separator isFirst ++ (memberBytes (foundMember entry) ++ rest))
      (.inl (false, found.add entry)) rest := by
  unfold foundMember
  rw [memberBytes_eq entry.1.name_plain]
  unfold captureStep
  simp only [List.cons_append, List.append_assoc]
  refine .bind (.anotherKey isFirst) ?_
  rw [if_pos rfl]
  refine .bind .skip (.bind (.text entry.1.name_plain) ?_)
  rw [next]
  refine .bind .colon (.bind (readIntegers_reads typed) ?_)
  exact .pure _

theorem captureFound_distinct (parts : CaptureParts) :
    ((captureFound parts).map Prod.fst).Nodup := by
  change captureFieldList.Nodup
  decide

theorem captureStep_runs (parts : CaptureParts) :
    Runs (fun (isFirst, found) => captureStep isFirst found) (true, [])
      (separated memberBytes true ((captureFound parts).map foundMember) ++ 125 :: rest)
      parts rest := by
  let advance (state : Bool × Found) (entry : Field × Array Int) : Bool × Found :=
    (false, state.2.add entry)
  have reached (done : Found) : (done.foldl advance (true, [])).2 = done.reverse := by
    rw [← foldl_add]
    exact (List.foldl_hom Prod.snd fun _ _ => rfl).symm
  rw [separated_map]
  refine Runs.separated advance Prod.fst ?_ (fun _ _ => rfl) ?_ (.brace rest) ?_
  · intro done entry more split left closed
    have typed := ofType_captureFound parts entry (by simp [split])
    have next := field?_next (captureFound_distinct parts) split
    refine captureStep_reads typed ?_
    rw [reached]
    exact next
  · intro entry _
    simp [memberBytes]
  · refine .done (.bind (.anotherKey_end _) (.bind .skip ?_))
    let found := (captureFound parts).foldl advance (true, [])
    change Reads (orStop (Found.captureParts found.2) >>= _) _ _ _
    rw [reached, captureParts_found]
    exact .pure _

theorem readCaptures_reads (parts : CaptureParts) :
    Reads readCaptures ((ofCaptures parts).write ++ rest) (some parts) rest := by
  rw [ofCaptures_eq]
  refine .bind .head_object ?_
  rw [write_object]
  simp only [List.cons_append, List.append_assoc]
  exact .bind .skip (.bind (captureStep_runs parts).repeatUntil (.pure _))

def Members.keep (members : Members) (member : String × Json) : Members :=
  { members with isFirst := false, others := members.others.push member }

/-- One member that is not the captures is read and kept. -/
theorem documentStep_reads_field {entry : Field × Array Int} (typed : OfType entry)
    (members : Members) :
    Reads (documentStep members)
      (separator members.isFirst ++ (memberBytes (foundMember entry) ++ rest))
      (.inl (members.keep (foundMember entry))) rest := by
  unfold foundMember
  rw [memberBytes_eq entry.1.name_plain]
  unfold documentStep
  simp only [List.cons_append, List.append_assoc]
  refine .bind (.anotherKey members.isFirst) ?_
  rw [if_pos rfl]
  refine .bind .skip (.bind (.text entry.1.name_plain) ?_)
  rw [if_pos entry.1.name_ne_captures]
  refine .bind .colon (.bind (.value_integers typed.fits 125) ?_)
  exact .pure _

theorem documentStep_reads_captures {members : Members} (missing : members.captures = none)
    (parts : CaptureParts) :
    Reads (documentStep members)
      (separator members.isFirst ++ (memberBytes (capturesKey, ofCaptures parts) ++ rest))
      (.inl { members with isFirst := false, captures := some (some parts) }) rest := by
  have plain : ∀ char ∈ capturesKey.toList, IsPlain char := isPlain_of_all (by decide)
  rw [memberBytes_eq plain]
  unfold documentStep
  simp only [List.cons_append, List.append_assoc]
  refine .bind (.anotherKey members.isFirst) ?_
  rw [if_pos rfl]
  refine .bind .skip (.bind (.text plain) ?_)
  rw [if_neg (not_not_intro rfl), missing, if_neg (by decide)]
  exact .bind .colon (.bind (readCaptures_reads parts) (.pure _))

theorem documentStep_reads_end {members : Members} {parts : PlainParts}
    (found : plainParts members.others.toList = .ok parts) :
    Reads (documentStep members) (125 :: rest) (.inr (parts, members.captures.join)) rest := by
  refine .bind (.anotherKey_end _) (.bind .skip ?_)
  rw [found]
  exact .pure _

theorem foldl_keep (fields : List (String × Json)) (members : Members) :
    fields.foldl Members.keep members =
      { members with
        isFirst := members.isFirst && fields.isEmpty
        others := members.others ++ fields } := by
  induction fields generalizing members with
  | nil => simp
  | cons field fields ih =>
    rw [List.foldl_cons, ih]
    simp [Members.keep]

theorem documentStep_runs (parts : PlainParts) (captures : Option CaptureParts) :
    Runs documentStep Members.none
      (separated memberBytes true ((plainFound parts).map foundMember ++
        captures.elim [] fun captures => [(capturesKey, ofCaptures captures)]) ++ 125 :: rest)
      (parts, captures) rest := by
  let fields := (plainFound parts).map foundMember
  have known := plainParts_members parts
  have kept : fields.foldl Members.keep Members.none =
      { isFirst := false, others := fields.toArray, captures := none } := by
    rw [foldl_keep]
    simp [Members.none, fields, plainFound, PlainFields.toList]
  rw [separated_append, List.append_assoc]
  refine Runs.separated Members.keep Members.isFirst ?_ (fun _ _ => rfl) ?_ ?_ ?_
  · intro done member more split left closed
    obtain ⟨entry, found, rfl⟩ : ∃ entry ∈ plainFound parts, foundMember entry = member := by
      rw [← List.mem_map, split]
      simp
    exact documentStep_reads_field (ofType_plainFound parts entry found) _
  · intro member _
    simp [memberBytes]
  · exact closed_separated memberBytes _ (.brace rest)
  · change Runs documentStep (fields.foldl Members.keep Members.none) _ _ _
    rw [kept]
    cases captures with
    | none => exact .done (documentStep_reads_end known)
    | some captures =>
      simp only [Option.elim, separated, List.append_nil, List.append_assoc]
      refine .more (documentStep_reads_captures rfl captures) ?_
        (.done (documentStep_reads_end known))
      simp [memberBytes]
      omega

theorem readDocument_reads (tables : Tables) :
    Reads readDocument ((ofTables tables).write ++ rest)
      (tables.parts, tables.captures.map CaptureTables.parts) rest := by
  have members : ofTables tables = .object ((plainFound tables.parts).map foundMember ++
      (tables.captures.map CaptureTables.parts).elim [] fun captures =>
        [(capturesKey, ofCaptures captures)]) := by
    rw [ofTables, members_eq]
    cases tables.captures <;> rfl
  rw [members]
  refine .bind .head_object ?_
  rw [write_object]
  simp only [List.cons_append, List.append_assoc]
  exact .bind .skip (documentStep_runs _ _).repeatUntil

theorem read_write (tables : Tables) :
    read (write tables) = .ok (tables.parts, tables.captures.map CaptureTables.parts) := by
  have whole : Reads readDocument (write tables)
      (tables.parts, tables.captures.map CaptureTables.parts) [] := by
    have read : Reads readDocument (write tables ++ []) _ [] := readDocument_reads tables
    rwa [List.append_nil] at read
  exact run_of_reads (.bind whole (.bind (.bind .peekToken_end (.pure ())) (.pure _)))

/-- Accepted tables load back from the document they are written to, which thus says the same as
their binary file. -/
theorem document_loads {parts : PlainParts} {capture : Option CaptureParts} {tables : Tables}
    (accepted : Tables.ofParts parts capture = .ok tables) :
    Tables.ofJson (write tables) = .ok tables ∧
      ∀ bytes, Binary.write tables = .ok bytes →
        Tables.ofBinary bytes = Tables.ofJson (write tables) := by
  have loaded : Tables.ofJson (write tables) = .ok tables := by
    obtain ⟨rfl, rfl, _⟩ := Tables.ofParts_eq_ok accepted
    unfold Tables.ofJson
    rw [read_write]
    exact mapError_eq_ok_iff.mpr accepted
  refine ⟨loaded, fun bytes written => ?_⟩
  have read := Binary.ofBinary_write accepted written []
  rw [List.append_nil] at read
  exact read.trans loaded.symm

theorem document_loads_rerun :
    Tables.ofParts rerunParts (some rerunCapture) = .ok rerunTables ∧
    Tables.ofJson (write rerunTables) = .ok rerunTables ∧
    ∃ bytes, Binary.write rerunTables = .ok bytes ∧
      Tables.ofBinary bytes = Tables.ofJson (write rerunTables) := by
  obtain ⟨loaded, same⟩ := document_loads rerunTables_accepted
  obtain ⟨bytes, written⟩ := Binary.write_succeeds rerunTables_accepted Binary.rerunTables_fitsWords
  exact ⟨rerunTables_accepted, loaded, bytes, written, same bytes written⟩

end TableLexer.Document
