import CallBridge.Bench.Report
import CallBridge.Check.Summary
import CallBridge.Proofs.Json.Codecs

/-!
# Reports read back

The JSON of a report is read back and decoded as the report, whatever its texts are and however many
measurements or verdicts it holds (`reports_survive`): its counts are of their widths, and its
doubles are finite ones whose texts read back. So what is rendered of it afterwards is rendered of
the report.
-/

namespace CallBridge
open Decoder Record

/-! ### Parts of a report -/

namespace Managed.Counters

theorem returns {c : Counters} (h : ∀ n ∈ c.toList, n < Nat.pow 2 64) (depth : Nat) :
    decode.Returns (depth + 1) c.toJson c := by
  have hword : ∀ n ∈ c.toList, word.Returns depth (.nat n) n := fun n hn => returns_word (h n hn)
  simp only [toList, List.forall_mem_cons] at hword
  obtain ⟨hrequests, hlookups, hcreated, hlive, hchecks, hattachments, hinvocations, -⟩ := hword
  have hfills := fills_of depth Counters.mk
    |>.required "handle_requests" (by decide) hrequests
    |>.required "method_lookups" (by decide) hlookups
    |>.required "global_refs_created" (by decide) hcreated
    |>.required "live_global_refs" (by decide) hlive
    |>.required "attach_checks" (by decide) hchecks
    |>.required "attachments" (by decide) hattachments
    |>.required "invocations" (by decide) hinvocations
  exact hfills.returns "SimStats"

end Managed.Counters

namespace Bench

theorem CallShape.returns (s : CallShape) (depth : Nat) : decode.Returns depth (.str s.name) s := by
  refine returns_str ?_
  cases s <;> rfl

theorem Arrangement.returns (a : Arrangement) (depth : Nat) :
    decode.Returns depth (.str a.name) a := by
  refine returns_str ?_
  cases a <;> rfl

theorem Plan.returns_seed (seed : UInt64) (depth : Nat) :
    decodeSeed.Returns depth (.nat seed.toNat) seed := by
  have hword : word.Returns depth (.nat seed.toNat) seed.toNat := returns_word seed.toNat_lt
  refine ⟨hword.legible, ?_⟩
  rw [decodeSeed, hword.decoded]
  exact congrArg Except.ok (UInt64.ofNat_toNat)

/-- The numbers of calls are of their widths. -/
structure Sizing.InRange (s : Sizing) : Prop where
  warmup : s.warmup < Nat.pow 2 64
  samples : s.samples < Nat.pow 2 64
  calls : s.calls < Nat.pow 2 64

theorem Sizing.InRange.returns {s : Sizing} (h : s.InRange) (depth : Nat) :
    Sizing.decode.Returns (depth + 1) s.toJson s := by
  have hfills := fills_of depth Sizing.mk
    |>.required "warmup_iters" (by decide) (returns_word h.warmup)
    |>.required "sample_count" (by decide) (returns_size h.samples)
    |>.required "sample_iters" (by decide) (returns_word h.calls)
  exact hfills.returns "MicrobenchConfig"

/-- The doubles of a latency. -/
def Latency.figures (l : Latency) : List Binary64 := [l.p50, l.p95, l.p99, l.mean]

theorem Latency.returns {l : Latency} (hsamples : l.samples < Nat.pow 2 64)
    (hread : ∀ x ∈ l.figures, Json.ReadsBack x) (depth : Nat) :
    decode.Returns (depth + 1) l.toJson l := by
  have hfloat : ∀ x ∈ l.figures, float.Returns depth (.float x) x :=
    fun x hx => returns_float (hread x hx)
  simp only [figures, List.forall_mem_cons] at hfloat
  obtain ⟨hp50, hp95, hp99, hmean, -⟩ := hfloat
  have hfills := fills_of depth Latency.mk
    |>.required "samples" (by decide) (returns_size hsamples)
    |>.required "p50_ns_op" (by decide) hp50
    |>.required "p95_ns_op" (by decide) hp95
    |>.required "p99_ns_op" (by decide) hp99
    |>.required "mean_ns_op" (by decide) hmean
  exact hfills.returns "LatencyStats"

namespace Measurement
variable {m : Measurement}

/-- The doubles of a measurement. -/
def figures (m : Measurement) : List Binary64 :=
  m.latency.figures ++ m.rate :: m.bridgeCalls.toList

/-- The counts of a measurement are of their widths. -/
structure InRange (m : Measurement) : Prop where
  length : m.length < Nat.pow 2 64
  samples : m.latency.samples < Nat.pow 2 64

theorem InRange.returns (h : m.InRange) (hread : ∀ x ∈ m.figures, Json.ReadsBack x) (depth : Nat) :
    decode.Returns (depth + 2) m.toJson m := by
  obtain ⟨hlatency, hrate, hcalls⟩ : (∀ x ∈ m.latency.figures, Json.ReadsBack x) ∧
      Json.ReadsBack m.rate ∧ ∀ x ∈ m.bridgeCalls.toList, Json.ReadsBack x := by
    simpa only [figures, List.forall_mem_append, List.forall_mem_cons] using hread
  have hfills := fills_of (depth + 1) Measurement.mk
    |>.required "shape" (by decide) (m.shape.returns _)
    |>.required "length" (by decide) (returns_size h.length)
    |>.required "input" (by decide) (m.input.returns _)
    |>.required "stats" (by decide) (Latency.returns h.samples hlatency depth)
    |>.required "ops_per_ms" (by decide) (returns_float hrate)
    |>.optional "bridge_calls_per_op" (by decide) (o := m.bridgeCalls) fun x hx =>
      (returns_float (hcalls x (by simp [hx]))).nullable Json.noConfusion
  exact hfills.returns "Measurement"

end Measurement

/-! ### Whole reports -/

namespace Report
variable {r : Report}

/-- The doubles of a report. -/
def figures (r : Report) : List Binary64 := r.measurements.flatMap (·.figures)

/-- The counts of a report are of their widths. -/
structure InRange (r : Report) : Prop where
  sizing : r.sizing.InRange
  measurements : ∀ m ∈ r.measurements, m.InRange
  runtime : ∀ n ∈ r.runtime.toList, n < Nat.pow 2 64

theorem InRange.returns (h : r.InRange) (hread : ∀ x ∈ r.figures, Json.ReadsBack x) (depth : Nat) :
    decode.Returns (depth + 4) r.toJson r := by
  have hmeasurements : ∀ m ∈ r.measurements, Measurement.decode.Returns (depth + 2) m.toJson m :=
    fun m hm => (h.measurements m hm).returns
      (fun x hx => hread x (List.mem_flatMap.2 ⟨m, hm, hx⟩)) depth
  have hfills := fills_of (depth + 3) Report.mk
    |>.required "title" (by decide) (returns_string r.title)
    |>.required "timestamp" (by decide) (returns_string r.timestamp)
    |>.required "input" (by decide) (r.input.returns _)
    |>.required "seed" (by decide) (Plan.returns_seed r.seed _)
    |>.required "config" (by decide) (h.sizing.returns (depth + 2))
    |>.required "measurements" (by decide) (returns_list hmeasurements)
    |>.required "runtime" (by decide) (Managed.Counters.returns h.runtime (depth + 2))
  exact hfills.returns "BenchReport"

end Report
end Bench

namespace Check

theorem Verdict.returns (v : Verdict) (depth : Nat) :
    Verdict.decode.Returns (depth + 1) v.toJson v := by
  have hfills := fills_of depth Verdict.mk
    |>.required "property" (by decide) (returns_string v.property)
    |>.required "passed" (by decide) (returns_bool v.passed)
    |>.required "detail" (by decide) (returns_string v.detail)
  exact hfills.returns "PropertyResult"

/-- The counts of a summary are of their widths. -/
structure Summary.InRange (s : Summary) : Prop where
  total : s.total < Nat.pow 2 64
  passed : s.passed < Nat.pow 2 64
  failed : s.failed < Nat.pow 2 64

theorem Summary.InRange.returns {s : Summary} (h : s.InRange) (depth : Nat) :
    Summary.decode.Returns (depth + 3) s.toJson s := by
  have hverdicts : ∀ v ∈ s.verdicts, Verdict.decode.Returns (depth + 1) v.toJson v :=
    fun v _ => v.returns depth
  have hfills := fills_of (depth + 2) Summary.mk
    |>.required "total" (by decide) (returns_size h.total)
    |>.required "passed" (by decide) (returns_size h.passed)
    |>.required "failed" (by decide) (returns_size h.failed)
    |>.required "results" (by decide) (returns_list hverdicts)
  exact hfills.returns "VerificationSummary"

theorem Report.returns {r : Report} (h : r.summary.InRange) (depth : Nat) :
    Report.decode.Returns (depth + 4) r.toJson r := by
  have hfills := fills_of (depth + 3) Report.mk
    |>.required "title" (by decide) (returns_string r.title)
    |>.required "timestamp" (by decide) (returns_string r.timestamp)
    |>.required "seed" (by decide) (Bench.Plan.returns_seed r.seed _)
    |>.required "summary" (by decide) (h.returns depth)
  exact hfills.returns "VerifyReport"

end Check

/-- What returns from a value is decoded from the value's text over several lines. -/
theorem Decoder.Returns.read_pretty {α : Type} {d : Decoder α} {j : Json} {a : α}
    (h : d.Returns Json.maxDepth j a) : ∃ i, Json.read j.pretty = .ok i ∧ d i = .ok a :=
  ⟨_, Json.read_pretty h.legible, h.decoded⟩

/-- A report is read back from its JSON, and rendering what was read renders the report. -/
theorem reports_survive :
    (∀ r : Check.Report, r.summary.InRange → ∃ j, Json.read r.jsonText = .ok j ∧
      Check.Report.decode j = .ok r ∧
      (Check.Report.decode j).map (·.markdown) = .ok r.markdown) ∧
    ∀ r : Bench.Report, r.InRange → (∀ x ∈ r.figures, x.isFinite) →
      (∀ x ∈ r.figures, x.isFinite → Json.ReadsBack x) → ∃ j, Json.read r.jsonText = .ok j ∧
        Bench.Report.decode j = .ok r ∧
        (Bench.Report.decode j).map (·.markdown) = .ok r.markdown := by
  constructor
  · intro r hrange
    obtain ⟨j, hread, hdecode⟩ := (Check.Report.returns hrange 123).read_pretty
    exact ⟨j, hread, hdecode, congrArg _ hdecode⟩
  · intro r hrange hfinite hread
    have hreturns := hrange.returns (fun x hx => hread x hx (hfinite x hx)) 123
    obtain ⟨j, hread, hdecode⟩ := hreturns.read_pretty
    exact ⟨j, hread, hdecode, congrArg _ hdecode⟩

/-- Texts that have to be escaped, counts at their limits, and a measurement with the calls of
managed code and one without. -/
theorem reports_survive_hard :
    let c : Check.Report := {
      title := "# \"a\" \\ \u00e9\n\x01|", timestamp := "", seed := 0xFFFFFFFFFFFFFFFF
      summary := ⟨2, 18446744073709551615, 0, [⟨"p", true, "\u65e5\t"⟩, ⟨"", false, "\x7f"⟩]⟩ }
    let m : Bench.Measurement := {
      shape := .qsortInstance, length := 18446744073709551615, input := .random
      latency := ⟨18446744073709551615, ⟨4609434218613702656⟩, ⟨4599075939470750515⟩,
        ⟨13826050856027422720⟩, .zero true⟩
      rate := ⟨4599075939470750515⟩, bridgeCalls := some (.ofNat 17) }
    let b : Bench.Report := {
      title := "\r\n", timestamp := "\u2028", input := .descending, seed := 1
      sizing := ⟨18446744073709551615, 0, 1⟩
      measurements := [m, { m with shape := .noop, bridgeCalls := none }]
      runtime := ⟨18446744073709551615, 0, 1, 2, 3, 4, 18446744073709551615⟩ }
    (∃ j, Json.read c.jsonText = .ok j ∧ Check.Report.decode j = .ok c) ∧
      ∃ j, Json.read b.jsonText = .ok j ∧ Bench.Report.decode j = .ok b := by
  intro c m b
  obtain ⟨hcheck, hbench⟩ := reports_survive
  have hrange : b.InRange := by
    refine ⟨⟨by decide, by decide, by decide⟩, ?_, by decide⟩
    refine List.forall_mem_cons.2 ⟨⟨by decide, by decide⟩, List.forall_mem_singleton.2 ?_⟩
    exact ⟨by decide, by decide⟩
  have hfinite : ∀ x ∈ b.figures, x.isFinite := by decide +kernel
  have hread : ∀ x ∈ b.figures, x.isFinite → Json.ReadsBack x := by decide +kernel
  obtain ⟨j, hj, hdecode, -⟩ := hcheck c ⟨by decide, by decide, by decide⟩
  obtain ⟨k, hk, hdecode', -⟩ := hbench b hrange hfinite hread
  exact ⟨⟨j, hj, hdecode⟩, k, hk, hdecode'⟩

end CallBridge
