import TableLexer.Proofs.Recognition.Answer
import TableLexer.Proofs.Scanning.Pieces

/-! Captures have no say in recognition. A call comes to the same and leaves the same window with
captures and without, whatever the cells hold, and a scan finds the same tokens. -/

set_option autoImplicit false

namespace TableLexer

namespace Tables

variable {tables : Tables}

/-- Captures never influence recognition. The outcome of a call and the window it leaves are the
same with captures and without, and whatever the cells hold. A scan ends in the same way with
captures and without, and its tokens are the same but for their captures. -/
theorem captures_unseen {parts : PlainParts} {capture : CaptureParts}
    (accepted : Tables.ofParts parts (some capture) = .ok tables) :
    (∀ (entry : Entry) (window : Window), ∃ outcome after, ∀ cells : Array Cell,
      (∃ result, tables.runPlain entry window cells = .ok result ∧
        result.outcome = outcome ∧ result.window = after) ∧
      ∃ result, tables.runCapturing entry window cells = .ok result ∧
        result.outcome = outcome ∧ result.window = after) ∧
    ∀ pieces : List (List UInt8),
      ((Scanner.plain tables).scan pieces).ending =
        ((Scanner.ofTables tables).scan pieces).ending ∧
      ((Scanner.plain tables).scan pieces).reports.toList.map Token.bare =
        ((Scanner.ofTables tables).scan pieces).reports.toList.map Token.bare := by
  obtain ⟨_, kept, valid⟩ := ofParts_eq_ok accepted
  obtain ⟨captures, carried, _⟩ := Option.map_eq_some_iff.mp kept
  constructor
  · intro entry window
    refine ⟨(tables.answer entry window).1, (tables.answer entry window).2, ?_⟩
    intro cells
    obtain ⟨plain, ranPlain, samePlain⟩ := runPlain_answers valid entry window cells
    obtain ⟨captured, ranCaptured, sameCaptured⟩ :=
      runCapturing_answers valid carried entry window cells
    rw [← samePlain]
    refine ⟨⟨plain, ranPlain, rfl, rfl⟩, captured, ranCaptured, ?_⟩
    exact Prod.mk.inj (sameCaptured.trans samePlain.symm)
  · intro pieces
    -- Both scans find the tokens of the bytes, up to captures.
    obtain ⟨plainTokens, plainEnding⟩ := Scanner.scan_tokenize valid (.inl rfl) pieces
    obtain ⟨tokens, ending⟩ := Scanner.scan_tokenize valid (.inr rfl) pieces
    exact ⟨plainEnding.trans ending.symm, plainTokens.trans tokens.symm⟩

theorem captures_unseen_rerun :
    Tables.ofParts rerunParts (some rerunCapture) = .ok rerunTables ∧
    (∃ outcome after,
      (∃ result, rerunTables.runPlain (.fresh 0) (.ofBytes [97, 98]) #[some 7] = .ok result ∧
        result.outcome = outcome ∧ result.window = after) ∧
      ∃ result, rerunTables.runCapturing (.fresh 0) (.ofBytes [97, 98]) #[] = .ok result ∧
        result.outcome = outcome ∧ result.window = after) ∧
    ((Scanner.plain rerunTables).scan [[97], [98]]).reports.toList.map Token.bare =
      ((Scanner.ofTables rerunTables).scan [[97], [98]]).reports.toList.map Token.bare := by
  obtain ⟨calls, scans⟩ := captures_unseen rerunTables_accepted
  obtain ⟨outcome, after, answers⟩ := calls (.fresh 0) (.ofBytes [97, 98])
  exact ⟨rerunTables_accepted, ⟨outcome, after, (answers #[some 7]).1, (answers #[]).2⟩,
    (scans [[97], [98]]).2⟩

end Tables

end TableLexer
