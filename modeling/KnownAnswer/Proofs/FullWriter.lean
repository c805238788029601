import KnownAnswer.Proofs.ExitCode

/-!
# Writers that run full

All vectors are run before the first byte of the report is written, so a writer that runs full
changes nothing but how much of it is kept: exactly the front that it has room for.  The run fails
if that is not all, and the writer is left alone from then on (`runWith_of_capacity`).  A report may
reach the writer in pieces of any size: where it is cut does not matter.
-/

namespace KnownAnswer.CommandLine

open Conformance (Summary Trial)

/-! ## Delivery in pieces -/

section

variable {σ : Type} (offer : σ → Bytes → σ × Bool)

/-- Offers pieces to a writer of any kind, one after the other, until one is not taken whole. -/
def deliver (writer : σ) : List Bytes → σ × Bool
  | [] => (writer, true)
  | piece :: rest =>
    match offer writer piece with
    | (writer, true) => deliver writer rest
    | (writer, false) => (writer, false)

/-- A writer beside which it is written down what it was offered. -/
def recording (state : σ × List Bytes) (piece : Bytes) : (σ × List Bytes) × Bool :=
  let (writer, taken) := offer state.1 piece
  ((writer, state.2 ++ [piece]), taken)

variable {offer} {writer : σ} {piece : Bytes} {rest : List Bytes}

theorem deliver_cons_of_taken (h : (offer writer piece).2 = true) :
    deliver offer writer (piece :: rest) = deliver offer (offer writer piece).1 rest := by
  rw [deliver]
  split
  · rename_i hoffer
    rw [hoffer]
  · rename_i hoffer
    rw [hoffer] at h
    cases h

theorem deliver_cons_of_refused (h : (offer writer piece).2 = false) :
    deliver offer writer (piece :: rest) = ((offer writer piece).1, false) := by
  rw [deliver]
  split
  · rename_i hoffer
    rw [hoffer] at h
    cases h
  · rename_i hoffer
    rw [hoffer]

/-- What is written down leaves the writer as it is, and is all that it was offered: every piece,
or those up to the first that was not taken. -/
theorem deliver_recording (offer : σ → Bytes → σ × Bool) (writer : σ)
    (offered pieces : List Bytes) :
    ∃ log, deliver (recording offer) (writer, offered) pieces =
        (((deliver offer writer pieces).1, offered ++ log), (deliver offer writer pieces).2) ∧
      ((deliver offer writer pieces).2 = true ∧ log = pieces ∨
        (deliver offer writer pieces).2 = false ∧
          ∃ taken refused rest, pieces = taken ++ refused :: rest ∧ log = taken ++ [refused] ∧
            (deliver offer writer taken).2 = true ∧
            (deliver offer writer (taken ++ [refused])).2 = false) := by
  induction pieces generalizing writer offered with
  | nil => exact ⟨[], by rw [List.append_nil]; rfl, .inl ⟨rfl, rfl⟩⟩
  | cons piece pieces ih =>
      cases hpiece : (offer writer piece).2 with
      | true =>
          have hrecorded : (recording offer (writer, offered) piece).2 = true := hpiece
          rw [deliver_cons_of_taken hpiece, deliver_cons_of_taken hrecorded]
          obtain ⟨log, hdeliver, hlog⟩ := ih (offer writer piece).1 (offered ++ [piece])
          refine ⟨piece :: log, ?_, ?_⟩
          · rw [← List.append_cons] at hdeliver
            exact hdeliver
          · rcases hlog with ⟨hall, rfl⟩ | ⟨hsome, taken, refused, rest, rfl, rfl, htaken, hrefused⟩
            · exact .inl ⟨hall, rfl⟩
            · refine .inr ⟨hsome, piece :: taken, refused, rest, rfl, rfl, ?_, ?_⟩
              · rw [deliver_cons_of_taken hpiece]
                exact htaken
              · rw [List.cons_append, deliver_cons_of_taken hpiece]
                exact hrefused
      | false =>
          have hrecorded : (recording offer (writer, offered) piece).2 = false := hpiece
          have hsingle : (deliver offer writer [piece]).2 = false := by
            rw [deliver_cons_of_refused hpiece]
          rw [deliver_cons_of_refused hpiece, deliver_cons_of_refused hrecorded]
          exact ⟨[piece], rfl, .inr ⟨rfl, [], piece, pieces, rfl, rfl, rfl, hsingle⟩⟩

end

theorem writeLines_eq_deliver (writer : Writer) (lines : List String) :
    writer.writeLines lines = deliver Writer.offer writer (lines.map lineBytes) := by
  induction lines generalizing writer with
  | nil => rfl
  | cons line rest ih =>
      rw [Writer.writeLines, List.map_cons, deliver]
      split
      · rename_i hoffer
        rw [hoffer]
        exact ih _
      · rename_i hoffer
        rw [hoffer]

/-! ## Room for so many bytes -/

theorem offer_of_capacity (capacity : Nat) (written piece : Bytes) :
    Writer.offer { capacity := some capacity, written } piece =
      ({ capacity := some capacity,
         written := written ++ piece.take (capacity - written.length) },
        decide (piece.length ≤ capacity - written.length)) := rfl

/-- A writer takes the bytes that it has room for, however they are cut into pieces. -/
theorem deliver_of_capacity (capacity : Nat) (written : Bytes) (pieces : List Bytes) :
    deliver Writer.offer { capacity := some capacity, written } pieces =
      ({ capacity := some capacity,
         written := written ++ pieces.flatten.take (capacity - written.length) },
        decide (pieces.flatten.length ≤ capacity - written.length)) := by
  induction pieces generalizing written with
  | nil => simp [deliver]
  | cons piece rest ih =>
      rw [List.flatten_cons, List.length_append]
      by_cases hroom : piece.length ≤ capacity - written.length
      · have htaken := offer_of_capacity capacity written piece
        rw [List.take_of_length_le hroom, decide_eq_true hroom] at htaken
        have hrest : rest.flatten.length ≤ capacity - (written ++ piece).length ↔
            piece.length + rest.flatten.length ≤ capacity - written.length := by
          rw [List.length_append]
          omega
        rw [deliver_cons_of_taken (by rw [htaken]), htaken, ih, List.take_append,
          List.take_of_length_le hroom, List.append_assoc, decide_eq_decide.mpr hrest,
          List.length_append, Nat.sub_sub]
      · have hrefused := offer_of_capacity capacity written piece
        rw [decide_eq_false hroom] at hrefused
        rw [deliver_cons_of_refused (by rw [hrefused]), hrefused,
          List.take_append_of_le_length (by omega), decide_eq_false (by omega)]

theorem deliver_of_room (capacity : Nat) (pieces : List Bytes) :
    deliver Writer.offer { capacity := some capacity } pieces =
      ({ capacity := some capacity, written := pieces.flatten.take capacity },
        decide (pieces.flatten.length ≤ capacity)) := by
  rw [deliver_of_capacity, List.length_nil, Nat.sub_zero, List.nil_append]

theorem writeLines_of_capacity (capacity : Nat) (lines : List String) :
    Writer.writeLines { capacity := some capacity } lines =
      ({ capacity := some capacity, written := (lines.flatMap lineBytes).take capacity },
        decide ((lines.flatMap lineBytes).length ≤ capacity)) := by
  rw [writeLines_eq_deliver, deliver_of_room, List.flatMap_def]

/-! ## Runs -/

section

variable (cipherFor : Ccm.Key → BlockCipher) {read : FileReader} {options : Options}

theorem runWith_of_load_error {error : RunError} (h : loadVectors read options = .error error)
    (writer : Writer) : runWith cipherFor read options writer = (.error error, writer) := by
  rw [runWith, h]

/-- A run with loaded vectors has its summary before it writes, and writes what there is room
for. -/
theorem runWith_of_room {vectors : List TestVector} (h : loadVectors read options = .ok vectors)
    (capacity : Nat) :
    let summary := Trial.summary ((harness cipherFor options).runParallel vectors)
    let report := (lines summary).flatMap lineBytes
    runWith cipherFor read options { capacity := some capacity } =
      (if report.length ≤ capacity then .ok summary else .error (.writeReport Writer.fullReason),
        { capacity := some capacity, written := report.take capacity }) := by
  intro summary report
  have hwrite := writeLines_of_capacity capacity (lines summary)
  simp only [runWith, h]
  by_cases hroom : report.length ≤ capacity
  · rw [decide_eq_true hroom] at hwrite
    rw [hwrite, if_pos hroom]
  · rw [decide_eq_false hroom] at hwrite
    rw [hwrite, if_neg hroom]

end

/-- **A writer that runs full** keeps exactly the front of the report.  Let a run without vectors be
given any writer: it fails as loading did, and the writer is as before.  Let a run with vectors be
given a writer with room for so many bytes.  If the report of a run with room for everything is no
longer than that, all of it is written, and the summary is the same.  If it is longer, the run fails
to write, and exactly as many of its first bytes are written as there is room for.  Where the report
is cut before it is offered makes no difference to the writer, and nothing is offered behind the
piece that it does not take whole. -/
theorem runWith_of_capacity (cipherFor : Ccm.Key → BlockCipher) (read : FileReader)
    (options : Options) (capacity : Nat) :
    let full := runWith cipherFor read options { capacity := none }
    let cut := runWith cipherFor read options { capacity := some capacity }
    let report := full.2.written
    (∀ error, loadVectors read options = .error error → ∀ writer,
      runWith cipherFor read options writer = (.error error, writer)) ∧
    (∀ vectors, loadVectors read options = .ok vectors →
      (∃ summary, full.1 = .ok summary ∧
        (report.length ≤ capacity → cut.1 = .ok summary ∧ cut.2.written = report) ∧
        (capacity < report.length →
          cut.1 = .error (.writeReport Writer.fullReason) ∧
            cut.2.written = report.take capacity)) ∧
      ∀ pieces : List Bytes, pieces.flatten = report → ∃ offered : List Bytes,
        deliver (recording Writer.offer) ({ capacity := some capacity }, []) pieces =
          ((cut.2, offered), decide (report.length ≤ capacity)) ∧
        (report.length ≤ capacity → offered = pieces) ∧
        (capacity < report.length → ∃ taken refused rest,
          pieces = taken ++ refused :: rest ∧ offered = taken ++ [refused] ∧
            taken.flatten.length ≤ capacity ∧
            capacity < (taken ++ [refused]).flatten.length)) := by
  intro full cut report
  refine ⟨fun error h => runWith_of_load_error cipherFor h, fun vectors h => ?_⟩
  let summary := Trial.summary ((harness cipherFor options).runParallel vectors)
  have hfull : full =
      (.ok summary, { capacity := none, written := (lines summary).flatMap lineBytes }) :=
    runWith_of_ok cipherFor h
  have hreport : report = (lines summary).flatMap lineBytes := by
    show full.2.written = _
    rw [hfull]
  have hcut : cut =
      (if report.length ≤ capacity then .ok summary else .error (.writeReport Writer.fullReason),
        { capacity := some capacity, written := report.take capacity }) := by
    rw [hreport]
    exact runWith_of_room cipherFor h capacity
  refine ⟨⟨summary, by rw [hfull], fun hroom => ?_, fun hroom => ?_⟩, fun pieces hpieces => ?_⟩
  · rw [hcut, if_pos hroom, List.take_of_length_le hroom]
    exact ⟨rfl, rfl⟩
  · rw [hcut, if_neg (Nat.not_le_of_lt hroom)]
    exact ⟨rfl, rfl⟩
  · obtain ⟨offered, hdeliver, hoffered⟩ :=
      deliver_recording Writer.offer { capacity := some capacity } [] pieces
    simp only [deliver_of_room, hpieces, List.nil_append, decide_eq_true_eq,
      decide_eq_false_iff_not] at hdeliver hoffered
    refine ⟨offered, ?_, fun hroom => ?_, fun hroom => ?_⟩
    · rw [hdeliver, hcut]
    · rcases hoffered with ⟨-, hall⟩ | ⟨hfull, -⟩
      · exact hall
      · exact absurd hroom hfull
    · rcases hoffered with ⟨hfits, -⟩ | ⟨-, taken, refused, rest, hsplit, hlog, htaken, hrefused⟩
      · exact absurd hfits (Nat.not_le_of_lt hroom)
      · exact ⟨taken, refused, rest, hsplit, hlog, htaken, Nat.lt_of_not_le hrefused⟩

/-- A writer with just enough room, and one that lacks room for the last line feed. -/
theorem runWith_of_capacity_last_byte :
    let cipherFor : Ccm.Key → BlockCipher := fun _ => .total id
    let read : FileReader := fun _ => .ok "version=1\n[[vector]]\nid='v'\nexpected=''\n"
    let options : Options := { paths := ["a"] }
    let report := Bytes.ofText
      "v: FAIL (missing-input: key is missing)\nFAIL (1 of 1 vectors failed: v)\n"
    report.length = 72 ∧
      (∃ summary, (runWith cipherFor read options { capacity := some 72 }).1 = .ok summary) ∧
      (runWith cipherFor read options { capacity := some 72 }).2.written = report ∧
      (runWith cipherFor read options { capacity := some 71 }).1 =
        .error (.writeReport Writer.fullReason) ∧
      (runWith cipherFor read options { capacity := some 71 }).2.written = report.take 71 := by
  intro cipherFor read options report
  have hload : loadVectors read options = .ok [{ id := "v" }] := by decide +kernel
  have hreport : (runWith cipherFor read options { capacity := none }).2.written = report := by
    decide +kernel
  have hlength : report.length = 72 := by decide +kernel
  have hwhole := (congrArg List.length hreport).trans hlength
  obtain ⟨-, hroom⟩ := runWith_of_capacity cipherFor read options 72
  obtain ⟨⟨summary, -, hfits, -⟩, -⟩ := hroom _ hload
  obtain ⟨hok, hwritten⟩ := hfits (Nat.le_of_eq hwhole)
  obtain ⟨-, hcut⟩ := runWith_of_capacity cipherFor read options 71
  obtain ⟨⟨_, -, -, hfails⟩, -⟩ := hcut _ hload
  obtain ⟨herror, hfront⟩ := hfails (Nat.le_of_eq hwhole.symm)
  exact ⟨hlength, ⟨summary, hok⟩, hwritten.trans hreport, herror,
    hfront.trans (congrArg (List.take 71) hreport)⟩

end KnownAnswer.CommandLine
