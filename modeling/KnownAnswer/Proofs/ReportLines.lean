import KnownAnswer.Proofs.ExitCode
import KnownAnswer.Proofs.LineFeeds

/-!
# Lines that belong to vectors

A report is written as a line for each vector, one more for each output that is shown, and a last
line.  Whoever cuts it at line feeds gets these lines back if no id holds a line feed, and only then
(`report_lines`): an id is printed as it is, in the line of its vector and once more in the last
line if the vector fails.
-/

namespace KnownAnswer

namespace CommandLine

open Conformance (Harness Summary Trial sealedBytes?)
open Text (feeds)

/-! ## The lines of a vector -/

/-- The lines that are due to a vector: one with its outcome, and one with its output if outputs are
asked for and there is one. -/
def vectorLines (cipherFor : Ccm.Key → BlockCipher) (options : Options) (vector : TestVector) :
    List String :=
  let outcome := ((harness cipherFor options).trial vector).report.outcome
  (vector.id ++ ": " ++ outcome.text) ::
    if options.dump then ((sealedBytes? cipherFor vector).map dumpLine).toList else []

section

variable (cipherFor : Ccm.Key → BlockCipher) (options : Options)

theorem reportLines_trial (vector : TestVector) :
    reportLines ((harness cipherFor options).trial vector).report =
      vectorLines cipherFor options vector := by
  rw [reportLines, vectorLines, Harness.output_trial, Conformance.Report.line, Harness.id_trial]
  refine congrArg _ ?_
  show Option.toList (Option.map dumpLine (if options.dump then _ else none)) = _
  cases options.dump <;> rfl

theorem length_flatMap_vectorLines (vectors : List TestVector) :
    (vectors.flatMap (vectorLines cipherFor options)).length =
      vectors.length +
        if options.dump then vectors.countP fun vector => (sealedBytes? cipherFor vector).isSome
        else 0 := by
  cases hdump : options.dump with
  | false => simp [List.length_flatMap, vectorLines, hdump]
  | true =>
      induction vectors with
      | nil => rfl
      | cons vector rest ih =>
          have hlength : (vectorLines cipherFor options vector).length =
              1 + if (sealedBytes? cipherFor vector).isSome then 1 else 0 := by
            rw [vectorLines, hdump]
            cases sealedBytes? cipherFor vector <;> rfl
          rw [List.flatMap_cons, List.length_append, ih, List.length_cons, List.countP_cons,
            hlength, if_pos rfl, if_pos rfl]
          omega

end

/-! ## Where line feeds stem from -/

section

variable (encrypt : Ccm.Key → Block → Block) (options : Options)

theorem feeds_vectorLines (vector : TestVector) :
    ((vectorLines (fun key => .total (encrypt key)) options vector).map feeds).sum =
      feeds vector.id := by
  have hcipher : ∀ key, (harness (fun key => .total (encrypt key)) options).cipherFor key =
      .total (encrypt key) := fun _ => rfl
  have hline := Harness.feeds_line_trial hcipher Conformance.Checks.speakOfOutput_standard vector
  rw [← reportLines_trial, reportLines, List.map_cons, List.sum_cons, hline]
  cases ((harness (fun key => .total (encrypt key)) options).trial vector).report.output with
  | none => rfl
  | some output => simp [feeds_dumpLine]

theorem feeds_flatMap_vectorLines (vectors : List TestVector) :
    ((vectors.flatMap (vectorLines (fun key => .total (encrypt key)) options)).map feeds).sum =
      (vectors.map fun vector => feeds vector.id).sum := by
  induction vectors with
  | nil => rfl
  | cons vector rest ih =>
      rw [List.flatMap_cons, List.map_append, List.sum_append, feeds_vectorLines, ih, List.map_cons,
        List.sum_cons]

end

theorem count_flatMap_line (lines : List String) :
    (lines.flatMap fun line => Bytes.ofText line ++ [0x0A]).count 0x0A =
      lines.length + (lines.map feeds).sum := by
  induction lines with
  | nil => rfl
  | cons line rest ih =>
      rw [List.flatMap_cons, List.count_append, List.count_append, Bytes.count_ofText, ih,
        List.length_cons, List.map_cons, List.sum_cons, List.count_singleton_self]
      omega

/-- Written lines are got back by cutting at line feeds if they hold none. -/
theorem splitOn_flatMap_line_iff (lines : List String) :
    (lines.flatMap fun line => Bytes.ofText line ++ [0x0A]).splitOn 0x0A =
        lines.map Bytes.ofText ++ [[]] ↔
      (lines.map feeds).sum = 0 := by
  have hcut := splitOn_terminated (0x0A : UInt8) (lines.map Bytes.ofText)
  rw [List.flatMap_map] at hcut
  rw [hcut, List.append_left_inj, flatMap_splitOn_eq_self_iff, List.sum_eq_zero_iff_forall_eq_nat]
  simp [Bytes.feed_mem_ofText_iff, Text.feeds_eq_zero_iff]

/-! ## The report of a run -/

section

variable (encrypt : Ccm.Key → Block → Block) {read : FileReader} {options : Options}
  {vectors : List TestVector}

theorem written_runWith (h : loadVectors read options = .ok vectors) :
    let cipherFor := fun key => BlockCipher.total (encrypt key)
    let failing := vectors.filter fun vector => ¬ vector.Conforms encrypt
    (runWith cipherFor read options { capacity := none }).2.written =
      (vectors.flatMap (vectorLines cipherFor options) ++
        [Summary.verdict vectors.length (failing.map TestVector.id)]).flatMap
          fun line => Bytes.ofText line ++ [0x0A] := by
  intro cipherFor failing
  have hcipher : ∀ key, (harness cipherFor options).cipherFor key = .total (encrypt key) :=
    fun _ => rfl
  have hfailing := Harness.failingIds_summary hcipher rfl vectors
  have htotal : (Trial.summary ((harness cipherFor options).runParallel vectors)).total =
      vectors.length := by
    rw [Harness.summary_runParallel]
    exact List.length_map _
  rw [runWith_of_ok cipherFor h]
  show (lines _).flatMap lineBytes = _
  rw [lines, Summary.line_eq_verdict, hfailing, htotal, Harness.summary_runParallel,
    List.flatMap_map, funext lineBytes_eq, funext (reportLines_trial cipherFor options)]

end

/-- **The lines of a report.** Let a run come to an end, under ciphers that never fail.  It writes a
line for each of its vectors in order, with its id and its outcome, behind that a line with its
output if outputs are asked for and the vector was sealed, then the verdict, and behind each line a
line feed.  There are as many line feeds as lines, and in addition those of all ids and once more
those of the ids of vectors that fail.  Cut at line feeds the report falls into its lines exactly if
no id holds a line feed.  The program is such a run under its own cipher. -/
theorem report_lines (encrypt : Ccm.Key → Block → Block) (read : FileReader) (options : Options)
    {summary : Summary}
    (h : (runWith (fun key => .total (encrypt key)) read options { capacity := none }).1 =
      .ok summary) :
    let cipherFor := fun key => BlockCipher.total (encrypt key)
    let written := (runWith cipherFor read options { capacity := none }).2.written
    ∃ vectors, loadVectors read options = .ok vectors ∧
      let shown :=
        if options.dump then vectors.countP fun vector => (sealedBytes? cipherFor vector).isSome
        else 0
      let failing := vectors.filter fun vector => ¬ vector.Conforms encrypt
      let lines := vectors.flatMap (vectorLines cipherFor options) ++
        [Summary.verdict vectors.length (failing.map TestVector.id)]
      lines.length = vectors.length + shown + 1 ∧
      written = lines.flatMap (fun line => Bytes.ofText line ++ [0x0A]) ∧
      written.count 0x0A = lines.length + (vectors.map fun vector => feeds vector.id).sum +
        (failing.map fun vector => feeds vector.id).sum ∧
      (written.splitOn 0x0A = lines.map Bytes.ofText ++ [[]] ↔
        ∀ vector ∈ vectors, '\n' ∉ vector.id.toList) ∧
      run = runWith fun key => .total (Aes128.encryptBlock key) := by
  intro cipherFor written
  obtain ⟨vectors, hload, rfl⟩ := (runWith_eq_ok_iff cipherFor).mp h
  refine ⟨vectors, hload, ?_⟩
  intro shown failing lines
  have hwritten : written = lines.flatMap fun line => Bytes.ofText line ++ [0x0A] :=
    written_runWith encrypt hload
  have hfeeds : (lines.map feeds).sum = (vectors.map fun vector => feeds vector.id).sum +
      (failing.map fun vector => feeds vector.id).sum := by
    show ((vectors.flatMap _ ++ [_]).map feeds).sum = _
    rw [List.map_append, List.sum_append, feeds_flatMap_vectorLines, List.map_singleton,
      List.sum_singleton, Summary.feeds_verdict, List.map_map]
    rfl
  refine ⟨?_, hwritten, ?_, ?_, rfl⟩
  · rw [List.length_append, length_flatMap_vectorLines]
    rfl
  · rw [hwritten, count_flatMap_line, hfeeds, Nat.add_assoc]
  · rw [hwritten, splitOn_flatMap_line_iff, hfeeds, Nat.add_eq_zero_iff,
      List.sum_eq_zero_iff_forall_eq_nat, List.sum_eq_zero_iff_forall_eq_nat]
    simp only [List.forall_mem_map, Text.feeds_eq_zero_iff]
    constructor
    · exact And.left
    · intro hnone
      exact ⟨hnone, fun vector hvector => hnone vector (List.mem_of_mem_filter hvector)⟩

/-- A vector with a plain id, whose output is shown. -/
theorem report_lines_plain_id :
    let text := "version=1\n[[vector]]\nid='v'\nkey=\x7brepeat='07',len=16\x7d\n" ++
      "nonce=\x7brepeat='01',len=13\x7d\nmlen=4\nexpected=''\n"
    let read : FileReader := fun _ => .ok text
    let options : Options := { paths := ["a"], dump := true }
    let run := runWith (fun _ => .total id) read options { capacity := none }
    let lines := ["v: FAIL (length-mismatch: expected 0 bytes, computed 4)",
      "  4 bytes: 08000000", "FAIL (1 of 1 vectors failed: v)"]
    (∃ summary, run.1 = .ok summary) ∧ run.2.written.count 0x0A = 3 ∧
      run.2.written.splitOn 0x0A = lines.map Bytes.ofText ++ [[]] := by
  intro text read options run lines
  have hload : loadVectors read options = .ok
      [{ id := "v", key := some (List.replicate 16 7), nonce := some (List.replicate 13 1),
         macLength := some 4 }] := by decide +kernel
  have hrun := congrArg Prod.fst (runWith_of_ok (fun _ => .total id) hload)
  obtain ⟨vectors, hvectors, hlength, -, hcount, hcut, -⟩ :=
    report_lines (fun _ => id) read options hrun
  cases hload.symm.trans hvectors
  refine ⟨⟨_, hrun⟩, ?_, ?_⟩
  · show run.2.written.count 0x0A = 3
    rw [hcount, hlength]
    decide +kernel
  · show run.2.written.splitOn 0x0A = _
    rw [hcut.mpr (by decide)]
    decide +kernel

/-- An id with a line feed parts the line of its vector. -/
theorem report_lines_id_with_feed :
    let read : FileReader := fun _ => .ok "version=1\n[[vector]]\nid=\"a\\nb\"\nexpected=''\n"
    let options : Options := { paths := ["a"] }
    let lines := ["a\nb: FAIL (missing-input: key is missing)",
      "FAIL (1 of 1 vectors failed: a\nb)"]
    loadVectors read options = .ok [{ id := "a\nb" }] ∧
      (run read options { capacity := none }).2.written =
        lines.flatMap (fun line => Bytes.ofText line ++ [0x0A]) ∧
      (run read options { capacity := none }).2.written.count 0x0A = 4 ∧
      (run read options { capacity := none }).2.written.splitOn 0x0A ≠
        lines.map Bytes.ofText ++ [[]] := by
  decide +kernel

end CommandLine

end KnownAnswer
