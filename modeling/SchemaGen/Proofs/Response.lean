import SchemaGen.Response
import SchemaGen.Proofs.Wire.RoundTrip

/-!
# Reading back responses

`decode?_encode`: every response is read back from its encoding, whatever its texts and however
long they are.
-/

namespace SchemaGen.Response

open Wire (Record Token)
open Descriptor (textRecord textRecord? messageRecord)

def isPlain (record : Record) : Prop :=
  record.height = 0 ∧ ∀ token ∈ record.tokens, 0 < token.number ∧ token.number ≤ Token.maxNumber

theorem readWithin_of_isPlain {records : List Record} (h : ∀ record ∈ records, isPlain record) :
    Record.readWithin (Record.encodeAll records).length Wire.Schema.maxDepth
      (Record.encodeAll records) = some records := by
  apply Record.readWithin_length_encodeAll
  · intro token htoken
    obtain ⟨record, hrecord, htoken⟩ := Record.mem_tokensAll.mp htoken
    exact (h record hrecord).2 token htoken
  · refine Record.heightAll_le.mpr fun record hrecord => ?_
    rw [(h record hrecord).1]
    exact Nat.zero_le _

theorem isPlain_textRecord {number : Nat} (hpositive : 0 < number)
    (hsmall : number ≤ Token.maxNumber) (text : String) : isPlain (textRecord number text) := by
  refine ⟨by simp [textRecord, Record.height], fun token htoken => ?_⟩
  simp only [textRecord, Record.tokens, List.mem_singleton] at htoken
  subst htoken
  exact ⟨hpositive, hsmall⟩

theorem fileOf?_encodeAll (file : Artifact) :
    fileOf? (Record.encodeAll [textRecord 1 file.name, textRecord 15 file.content]) =
      some file := by
  have hplain : ∀ record ∈ [textRecord 1 file.name, textRecord 15 file.content],
      isPlain record := by
    intro record hrecord
    simp only [List.mem_cons, List.not_mem_nil, or_false] at hrecord
    rcases hrecord with rfl | rfl
    · exact isPlain_textRecord (by decide) (by decide) _
    · exact isPlain_textRecord (by decide) (by decide) _
  have hname := Wire.text?_toUTF8 file.name
  have hcontent := Wire.text?_toUTF8 file.content
  rw [fileOf?, readWithin_of_isPlain hplain]
  simp [-String.toUTF8_eq_toByteArray, lastText?, Record.contents, textRecord, hname, hcontent]

theorem isPlain_of_mem_toRecords {response : Response} {record : Record}
    (h : record ∈ response.toRecords) : isPlain record := by
  simp only [toRecords, textRecord?, List.mem_append, List.mem_map] at h
  rcases h with (⟨error, -, rfl⟩ | ⟨value, -, rfl⟩) | ⟨file, -, rfl⟩
  · exact isPlain_textRecord (by decide) (by decide) _
  · simp [isPlain, Record.height, Record.tokens, Token.number, Token.maxNumber]
  · simp [isPlain, fileRecord, messageRecord, Record.height, Record.tokens, Token.number,
      Token.maxNumber]

theorem contents_toRecords (response : Response) :
    Record.contents 1 response.toRecords =
        response.error.toList.map (fun text => text.toUTF8.data.toList) ∧
      Record.varints 2 response.toRecords = response.features.toList ∧
      Record.contents 15 response.toRecords = response.files.map fun file =>
        Record.encodeAll [textRecord 1 file.name, textRecord 15 file.content] := by
  have hnone : ∀ {α β : Type} (values : List α),
      values.filterMap (fun _ => (none : Option β)) = [] :=
    fun values => List.filterMap_eq_nil_iff.mpr fun _ _ => rfl
  simp only [Record.contents, Record.varints, toRecords, textRecord?, textRecord, fileRecord,
    messageRecord, List.filterMap_append, List.filterMap_map, Function.comp_def]
  simp [-String.toUTF8_eq_toByteArray, hnone]

theorem decode?_encode (response : Response) : decode? response.encode = some response := by
  have hread : Record.readWithin response.encode.length Wire.Schema.maxDepth response.encode =
      some response.toRecords := readWithin_of_isPlain fun record => isPlain_of_mem_toRecords
  obtain ⟨herrors, hfeatures, hcontents⟩ := contents_toRecords response
  have herror : lastText? 1 response.toRecords = some response.error := by
    rw [lastText?, herrors]
    cases response.error with
    | none => rfl
    | some text => exact congrArg (Option.map some) (Wire.text?_toUTF8 text)
  have hfiles : (Record.contents 15 response.toRecords).mapM fileOf? = some response.files := by
    rw [hcontents]
    induction response.files with
    | nil => rfl
    | cons file more ih => simp [fileOf?_encodeAll, ih]
  have hlast : (Record.varints 2 response.toRecords).getLast? = response.features := by
    rw [hfeatures]
    cases response.features <;> rfl
  rw [decode?, hread]
  simp [herror, hfiles, hlast]

end SchemaGen.Response
