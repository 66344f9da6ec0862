import CallBridge.Log.Entry
import CallBridge.Proofs.Json.Records

/-!
# The fields of an entry

`Entry.Fits e ms`: each field of the entry `e` is what the members `ms` hold under its name. An
object with one member for each key is decoded as the entry that its members fit
(`Entry.Fits.decode`).
-/

namespace CallBridge.Log
open Bench
open Json (Members)

namespace Entry

/-- Each field of an entry is what members hold under its name. -/
structure Fits (e : Entry) (ms : Members) : Prop where
  timestamp : ms.Holds "timestamp" .string e.timestamp
  traceId : ms.Holds "trace_id" .string e.traceId
  level : ms.Holds "level" Level.decode e.level
  event : ms.Holds "event" .string e.event
  runKind : ms.MayHold "run_kind" RunKind.decode e.runKind
  shape : ms.MayHold "shape" CallShape.decode e.shape
  length : ms.MayHold "length" .size e.length
  input : ms.MayHold "input" .string e.input
  property : ms.MayHold "property" .string e.property
  outcome : ms.MayHold "outcome" Outcome.decode e.outcome
  exitCode : ms.MayHold "exit_code" decodeExitCode e.exitCode
  latency : ms.MayHold "latency_ns" .float e.latency
  rate : ms.MayHold "ops_per_ms" .float e.rate
  bridgeCalls : ms.MayHold "bridge_calls_per_op" .float e.bridgeCalls
  duration : ms.MayHold "duration_ms" .word e.duration
  artifacts : ms.MayHold "artifact_refs" (.list .string) e.artifacts
  details : ms.MayHold "details" .any e.details

variable {ms : Members} {e : Entry}

theorem build_iff : record.build ms = .ok e ↔ Fits e ms := by
  constructor
  · -- The record was built field by field, so the last one comes off first.
    intro h17
    obtain ⟨_, _, h16, hdetails, rfl⟩ := Record.build_optional_iff.1 h17
    obtain ⟨_, _, h15, hartifacts, rfl⟩ := Record.build_optional_iff.1 h16
    obtain ⟨_, _, h14, hduration, rfl⟩ := Record.build_optional_iff.1 h15
    obtain ⟨_, _, h13, hbridgeCalls, rfl⟩ := Record.build_optional_iff.1 h14
    obtain ⟨_, _, h12, hrate, rfl⟩ := Record.build_optional_iff.1 h13
    obtain ⟨_, _, h11, hlatency, rfl⟩ := Record.build_optional_iff.1 h12
    obtain ⟨_, _, h10, hexitCode, rfl⟩ := Record.build_optional_iff.1 h11
    obtain ⟨_, _, h9, houtcome, rfl⟩ := Record.build_optional_iff.1 h10
    obtain ⟨_, _, h8, hproperty, rfl⟩ := Record.build_optional_iff.1 h9
    obtain ⟨_, _, h7, hinput, rfl⟩ := Record.build_optional_iff.1 h8
    obtain ⟨_, _, h6, hlength, rfl⟩ := Record.build_optional_iff.1 h7
    obtain ⟨_, _, h5, hshape, rfl⟩ := Record.build_optional_iff.1 h6
    obtain ⟨_, _, h4, hrunKind, rfl⟩ := Record.build_optional_iff.1 h5
    obtain ⟨_, _, h3, hevent, rfl⟩ := Record.build_required_iff.1 h4
    obtain ⟨_, _, h2, hlevel, rfl⟩ := Record.build_required_iff.1 h3
    obtain ⟨_, _, h1, htraceId, rfl⟩ := Record.build_required_iff.1 h2
    obtain ⟨_, _, h0, htimestamp, rfl⟩ := Record.build_required_iff.1 h1
    obtain rfl := Except.ok.inj h0
    exact ⟨htimestamp, htraceId, hlevel, hevent, hrunKind, hshape, hlength, hinput, hproperty,
      houtcome, hexitCode, hlatency, hrate, hbridgeCalls, hduration, hartifacts, hdetails⟩
  · intro h
    have hof : (Record.of Entry.mk).build ms = .ok Entry.mk := rfl
    have htimestamp := Record.build_required_iff.2 ⟨_, _, hof, h.timestamp, rfl⟩
    have htraceId := Record.build_required_iff.2 ⟨_, _, htimestamp, h.traceId, rfl⟩
    have hlevel := Record.build_required_iff.2 ⟨_, _, htraceId, h.level, rfl⟩
    have hevent := Record.build_required_iff.2 ⟨_, _, hlevel, h.event, rfl⟩
    have hrunKind := Record.build_optional_iff.2 ⟨_, _, hevent, h.runKind, rfl⟩
    have hshape := Record.build_optional_iff.2 ⟨_, _, hrunKind, h.shape, rfl⟩
    have hlength := Record.build_optional_iff.2 ⟨_, _, hshape, h.length, rfl⟩
    have hinput := Record.build_optional_iff.2 ⟨_, _, hlength, h.input, rfl⟩
    have hproperty := Record.build_optional_iff.2 ⟨_, _, hinput, h.property, rfl⟩
    have houtcome := Record.build_optional_iff.2 ⟨_, _, hproperty, h.outcome, rfl⟩
    have hexitCode := Record.build_optional_iff.2 ⟨_, _, houtcome, h.exitCode, rfl⟩
    have hlatency := Record.build_optional_iff.2 ⟨_, _, hexitCode, h.latency, rfl⟩
    have hrate := Record.build_optional_iff.2 ⟨_, _, hlatency, h.rate, rfl⟩
    have hbridgeCalls := Record.build_optional_iff.2 ⟨_, _, hrate, h.bridgeCalls, rfl⟩
    have hduration := Record.build_optional_iff.2 ⟨_, _, hbridgeCalls, h.duration, rfl⟩
    have hartifacts := Record.build_optional_iff.2 ⟨_, _, hduration, h.artifacts, rfl⟩
    exact Record.build_optional_iff.2 ⟨_, _, hartifacts, h.details, rfl⟩

theorem record_checked : record.Checked := by
  unfold record
  iterate 13 apply Record.Checked.optional
  iterate 4 apply Record.Checked.required
  exact Record.checked_of _

theorem fits_of_decode (h : decode (.object ms) = .ok e) : Fits e ms :=
  build_iff.1 (Record.build_of_decode h)

theorem Fits.decode (h : Fits e ms) (hms : ms.Distinct) : decode (.object ms) = .ok e :=
  Record.decode_of_build record_checked hms (build_iff.2 h)

end Entry
end CallBridge.Log
