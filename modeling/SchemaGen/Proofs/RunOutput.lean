import SchemaGen.Proofs.Reporting

/-!
# What a run writes

The bytes that a run writes are read back as one response, an error or the generated files but never
both, and its status says which of the two it is.
-/

namespace SchemaGen.Generation

open Descriptor (Request)
open Wire (Bytes)
open Fallible

/-- A payload that is answered with an error: it is no request, or generating from the request that
it is fails for a reason to be reported. -/
inductive Rejected (payload : Bytes) : Failure → Prop
  | undecodable (unread : Descriptor.Standard.schema.decode?
      Descriptor.Standard.generatorRequest payload = none) : Rejected payload .undecodableRequest
  | failed {request : Request} {failure : Failure}
      (decoded : decodeRequest payload = .ok request)
      (fails : generate request none = .error failure) (reported : failure.isReported = true) :
      Rejected payload failure

theorem decodeRequest_error_iff {payload : Bytes} {failure : Failure} :
    decodeRequest payload = .error failure ↔ failure = .undecodableRequest ∧
      Descriptor.Standard.schema.decode? Descriptor.Standard.generatorRequest payload = none := by
  rw [decodeRequest, requestRecords?]
  split
  · next hread => simp [hread]
  · next hread => simp [hread, eq_comm]

theorem refuseTargets_cases (request : Request) :
    refuseTargets request = .error .malformedText ∨
      refuseTargets request = respond request none := by
  rw [refuseTargets, respond, generate_eq]
  cases Target.ofParameter request.parameter with
  | error failure => exact .inr rfl
  | ok target =>
    cases Options.Reader.ofFiles request.files with
    | error failure => exact .inr rfl
    | ok reader => exact .inl rfl

section

variable {payload : Bytes} {outcome : Outcome} (h : run payload = .ok outcome)
include h

/-- A run that returns has not come to a text that is not UTF-8. -/
theorem answer_of_run :
    answer payload = decodeRequest payload >>= fun request => respond request none := by
  cases hparameter : hasTextParameter payload with
  | false =>
    rw [run_of_malformed_parameter hparameter] at h
    cases h
  | true =>
    cases htargets : hasTextTargets payload with
    | true => exact answer_of_texts hparameter htargets
    | false =>
      have hanswer : answer payload = decodeRequest payload >>= refuseTargets := by
        simp only [answer, hparameter, htargets, if_true, Bool.false_eq_true, if_false]
      rw [hanswer]
      cases hdecode : decodeRequest payload with
      | error failure => rfl
      | ok request =>
        rw [ok_bind, ok_bind]
        refine (refuseTargets_cases request).resolve_left fun hrefused => ?_
        rw [run, hanswer, hdecode, ok_bind, hrefused] at h
        cases h

theorem answer_eq_ok {response : Response} :
    answer payload = .ok response ↔ ∃ request files, decodeRequest payload = .ok request ∧
      generate request none = .ok files ∧
      response = { features := some Response.optionalFields, files } := by
  simp only [answer_of_run h, respond, bind_eq_ok, pure_eq, Except.ok.injEq]
  constructor
  · rintro ⟨request, hdecode, files, hgenerate, rfl⟩
    exact ⟨request, files, hdecode, hgenerate, rfl⟩
  · rintro ⟨request, files, hdecode, hgenerate, rfl⟩
    exact ⟨request, hdecode, files, hgenerate, rfl⟩

theorem rejected_iff {failure : Failure} :
    Rejected payload failure ↔ answer payload = .error failure ∧ failure.isReported = true := by
  simp only [answer_of_run h, respond, bind_eq_error, decodeRequest_error_iff, pure_eq,
    reduceCtorEq, and_false, exists_false, or_false]
  constructor
  · rintro (hread | ⟨hdecode, hgenerate, hreported⟩)
    · exact ⟨.inl ⟨rfl, hread⟩, rfl⟩
    · exact ⟨.inr ⟨_, hdecode, hgenerate⟩, hreported⟩
  · rintro ⟨⟨rfl, hread⟩ | ⟨request, hdecode, hgenerate⟩, hreported⟩
    · exact .undecodable hread
    · exact .failed hdecode hgenerate hreported

/-- How a run returns: with the files of its request, or with the error that its payload is rejected
for. -/
theorem run_cases :
    (∃ request files, decodeRequest payload = .ok request ∧ generate request none = .ok files ∧
        outcome = ⟨0, { features := some Response.optionalFields, files }⟩) ∨
      ∃ failure, Rejected payload failure ∧ outcome = ⟨1, { error := some failure.message }⟩ := by
  have hrun := h
  rw [run] at hrun
  split at hrun
  · next response hanswer =>
    obtain ⟨request, files, hdecode, hgenerate, rfl⟩ := (answer_eq_ok h).mp hanswer
    cases hrun
    exact .inl ⟨request, files, hdecode, hgenerate, rfl⟩
  · next failure hanswer =>
    split at hrun
    · next hreported =>
      cases hrun
      exact .inr ⟨failure, (rejected_iff h).mpr ⟨hanswer, hreported⟩, rfl⟩
    · cases hrun

end

/-- The bytes that a run writes agree with its status: status one and an error alone for a payload
that is rejected, status zero and the generated files in order for any other. -/
theorem run_output_decodes {payload : Bytes} {outcome : Outcome} (h : run payload = .ok outcome) :
    (outcome.status = 1 ↔ ∃ failure, Rejected payload failure) ∧
      (outcome.status = 0 ↔ ¬∃ failure, Rejected payload failure) ∧
      (∀ failure, Rejected payload failure → Response.decode? outcome.output =
        some { error := some failure.message, features := none, files := [] }) ∧
      ((¬∃ failure, Rejected payload failure) → ∃ request files,
        decodeRequest payload = .ok request ∧ generate request none = .ok files ∧
        Response.decode? outcome.output = some { error := none, features := some 1, files }) := by
  obtain ⟨request, files, hdecode, hgenerate, rfl⟩ | ⟨failure, hrejected, rfl⟩ := run_cases h
  · have hnever : ¬∃ failure, Rejected payload failure := by
      rintro ⟨failure, hrejected⟩
      have hanswer := ((rejected_iff h).mp hrejected).1
      rw [(answer_eq_ok h).mpr ⟨request, files, hdecode, hgenerate, rfl⟩] at hanswer
      cases hanswer
    refine ⟨by simp [hnever], by simp [hnever], fun failure hrejected => ?_, fun _ => ?_⟩
    · exact absurd ⟨failure, hrejected⟩ hnever
    · exact ⟨request, files, hdecode, hgenerate, Response.decode?_encode _⟩
  · refine ⟨by simpa using ⟨failure, hrejected⟩, by simpa using ⟨failure, hrejected⟩, ?_,
      fun hnever => absurd ⟨failure, hrejected⟩ hnever⟩
    intro other hother
    -- a payload is rejected for one reason only
    obtain rfl : failure = other := by
      have hanswer := ((rejected_iff h).mp hrejected).1
      rw [((rejected_iff h).mp hother).1] at hanswer
      exact (Except.error.inj hanswer).symm
    exact Response.decode?_encode _

/-- A request for a file whose package has a name longer than one byte of a length can say, with a
message outside ASCII and one without a name. -/
def longNames : Request where
  targets := ["é.proto"]
  files := [
    { name := some "é.proto", package := some ("".pushn 'ß' 200),
      messages := [
        { name := some "Größe",
          fields := [{ name := some "名前", number := some 1, type := some .string }] },
        { name := some "" }] }]

theorem run_output_decodes_longNames : ∃ outcome, run longNames.encode = .ok outcome ∧
    outcome.status = 0 ∧ ∃ request files, decodeRequest longNames.encode = .ok request ∧
      generate request none = .ok files ∧
      Response.decode? outcome.output = some { error := none, features := some 1, files } := by
  have hstatus : (run longNames.encode).toOption.map Outcome.status = some 0 := by decide +kernel
  cases h : run longNames.encode with
  | error failure =>
    rw [h] at hstatus
    cases hstatus
  | ok outcome =>
    rw [h] at hstatus
    obtain ⟨-, hzero, -, hfiles⟩ := run_output_decodes h
    have hstatus : outcome.status = 0 := Option.some.inj hstatus
    exact ⟨outcome, rfl, hstatus, hfiles (hzero.mp hstatus)⟩

end SchemaGen.Generation
