import BybitApi.ReplyAccess

/-!
# Errors that the exchange reports

`handleBybitResponse` decodes a reply as a whole and looks at its return code after that.
A reply without a return code therefore passes for a success, since the code of a new reply
is zero, and an error whose `result` is not decoded is reported as that of the decoder,
without the code and the message of the exchange.  `errors_recognised_iff` tells for which
bodies neither happens.
-/

namespace BybitApi

open Decoding

/-- `readValue` leaves an integer alone when the key is absent. -/
def ReplyReaders.LeavesAbsent (readers : ReplyReaders) : Prop :=
  ∀ {json key} (current : Int), json.find? key = none →
    readers.readInt json key current = .ok current

theorem ReplyReaders.documented_leavesAbsent (number : Json → Option Double) :
    (documented number).LeavesAbsent := by
  intro json key current h
  simp [documented, InstrumentReaders.documented, h]

section Statements

variable (text : JsonText) (common : VkCommon) (readers : ReplyReaders) (type : ReplyType)

/-- `handleBybitResponse` returns, or goes where nothing can be said. -/
def MayReturn (response : HttpResponse) (json : Json) : Prop :=
  (∃ value, handleBybitResponse text (type.fromJson common readers) response = .ok value) ∨
    Fails Fault.IsUndefined (type.fromJson common readers json)

/-- Only a reply with an integer return code of zero returns. -/
def ReturnsOnSuccess (response : HttpResponse) (json : Json) : Prop :=
  MayReturn text common readers type response json →
    json.find? "retCode" = some (.integer 0)

/-- An error of the exchange is thrown with its code and its message. -/
def ReportsErrors (response : HttpResponse) (json : Json) : Prop :=
  ∀ code msg, json.find? "retCode" = some (.integer code) → code ≠ 0 →
    json.find? "retMsg" = some (.string msg) →
      handleBybitResponse text (type.fromJson common readers) response = .error (.api code msg)

/-- Without an integer zero as its code, the reply is not read as a success: the envelope
    or the result is not read, or the code is not read as zero. -/
def FailureShows (json : Json) : Prop :=
  json.find? "retCode" ≠ some (.integer 0) → EnvelopeReads common readers json →
    ¬ type.TakesAbsent common readers (json.memberOrNull "result") ∧
      (readers.readInt json "retCode" 0 = .ok 0 →
        ¬ type.ResultReads common readers (json.memberOrNull "result"))

/-- With a code and a message, everything is read, and the code as it is. -/
def ErrorReads (json : Json) : Prop :=
  ∀ code msg, json.find? "retCode" = some (.integer code) → code ≠ 0 →
    json.find? "retMsg" = some (.string msg) →
      readers.readInt json "retCode" 0 = .ok code ∧
        Succeeds (common.readInt64 json "time" 0) ∧
          type.ResultReads common readers (json.memberOrNull "result")

end Statements

variable {text : JsonText} {common : VkCommon} {readers : ReplyReaders} {type : ReplyType}
  {response : HttpResponse} {json : Json}

/-- An exception of the parser or of a decoder is no error of the exchange. -/
theorem ofFault_ne_api (fault : Fault) (code : Int) (msg : String) :
    ApiError.ofFault fault ≠ .api code msg := by
  cases fault <;> simp [ApiError.ofFault]

/-- A reply of the type is read. -/
theorem fromJson_eq_ok_iff {envelope : Response} :
    (∃ value, type.fromJson common readers json = .ok (envelope, value)) ↔
      readers.readInt json "retCode" 0 = .ok envelope.retCode ∧
      common.readString json "retMsg" "" = .ok envelope.retMsg ∧
      common.readInt64 json "time" 0 = .ok envelope.time ∧
      json.memberOrNull "retExtInfo" = envelope.retExtInfo ∧
      json.memberOrNull "result" = envelope.result ∧
      type.ResultReads common readers (json.memberOrNull "result") := by
  rw [← type.succeeds_ofResult_iff]
  simp only [ReplyType.fromJson, readReply_eq_ok, exists_and_left]
  rfl

theorem handleBybitResponse_eq_ok_iff (hparse : text.parse response.body = .ok json)
    {value : type.Payload} :
    handleBybitResponse text (type.fromJson common readers) response = .ok value ↔
      ∃ envelope, type.fromJson common readers json = .ok (envelope, value) ∧
        envelope.retCode = 0 := by
  unfold handleBybitResponse
  simp only [hparse]
  cases type.fromJson common readers json with
  | error fault => simp
  | ok decoded =>
      obtain ⟨envelope, retVal⟩ := decoded
      by_cases hcode : envelope.retCode = 0
      · simp [hcode]
      · simp [hcode]

theorem handleBybitResponse_eq_api_iff (hparse : text.parse response.body = .ok json)
    {code : Int} {msg : String} :
    handleBybitResponse text (type.fromJson common readers) response = .error (.api code msg) ↔
      ∃ envelope, (∃ value, type.fromJson common readers json = .ok (envelope, value)) ∧
        envelope.retCode ≠ 0 ∧ envelope.retCode = code ∧ envelope.retMsg = msg := by
  unfold handleBybitResponse
  simp only [hparse]
  cases type.fromJson common readers json with
  | error fault => simp [ofFault_ne_api]
  | ok decoded =>
      obtain ⟨envelope, retVal⟩ := decoded
      by_cases hcode : envelope.retCode = 0
      · simp [hcode]
      · simp [hcode]

theorem returns_iff (hparse : text.parse response.body = .ok json) :
    (∃ value, handleBybitResponse text (type.fromJson common readers) response = .ok value) ↔
      EnvelopeReads common readers json ∧ readers.readInt json "retCode" 0 = .ok 0 ∧
        type.ResultReads common readers (json.memberOrNull "result") := by
  simp only [handleBybitResponse_eq_ok_iff hparse]
  constructor
  · rintro ⟨value, envelope, hdecodes, hcode⟩
    obtain ⟨hretCode, hmsg, htime, -, -, hresult⟩ := fromJson_eq_ok_iff.mp ⟨value, hdecodes⟩
    exact ⟨⟨⟨_, hretCode⟩, ⟨_, hmsg⟩, ⟨_, htime⟩⟩, hcode ▸ hretCode, hresult⟩
  · rintro ⟨⟨-, ⟨retMsg, hmsg⟩, ⟨time, htime⟩⟩, hretCode, hresult⟩
    let envelope : Response :=
      { retCode := 0, retMsg, retExtInfo := json.memberOrNull "retExtInfo", time,
        result := json.memberOrNull "result" }
    obtain ⟨value, hdecodes⟩ :
        ∃ value, type.fromJson common readers json = .ok (envelope, value) :=
      fromJson_eq_ok_iff.mpr ⟨hretCode, hmsg, htime, rfl, rfl, hresult⟩
    exact ⟨value, envelope, hdecodes, rfl⟩

theorem reports_iff (hparse : text.parse response.body = .ok json) {code : Int} {msg : String}
    (hcode : code ≠ 0) (hmsg : common.readString json "retMsg" "" = .ok msg) :
    handleBybitResponse text (type.fromJson common readers) response = .error (.api code msg) ↔
      readers.readInt json "retCode" 0 = .ok code ∧ Succeeds (common.readInt64 json "time" 0) ∧
        type.ResultReads common readers (json.memberOrNull "result") := by
  rw [handleBybitResponse_eq_api_iff hparse]
  constructor
  · rintro ⟨envelope, hdecodes, -, rfl, rfl⟩
    obtain ⟨hretCode, -, htime, -, -, hresult⟩ := fromJson_eq_ok_iff.mp hdecodes
    exact ⟨hretCode, ⟨_, htime⟩, hresult⟩
  · rintro ⟨hretCode, ⟨time, htime⟩, hresult⟩
    refine ⟨{ retCode := code, retMsg := msg, retExtInfo := json.memberOrNull "retExtInfo", time,
              result := json.memberOrNull "result" }, ?_, hcode, rfl, rfl⟩
    exact fromJson_eq_ok_iff.mpr ⟨hretCode, hmsg, htime, rfl, rfl, hresult⟩

/-- **When errors are recognised.**  For a body that is JSON, and for every type of reply:
    only a success returns, and an error is thrown with its code and its message, if and
    only if neither is hidden by the way in which the rest of the body is read. -/
theorem errors_recognised_iff (hcommon : common.Checks) (hreaders : readers.Checks)
    (hstrings : common.ReadsStrings) (type : ReplyType)
    (hparse : text.parse response.body = .ok json) :
    ReturnsOnSuccess text common readers type response json ∧
        ReportsErrors text common readers type response json ↔
      FailureShows common readers type json ∧ ErrorReads common readers type json := by
  apply and_congr
  · unfold ReturnsOnSuccess MayReturn FailureShows
    rw [returns_iff hparse, undefined_reply_iff hcommon hreaders,
      undefined_ofResult_iff hcommon hreaders]
    tauto
  · unfold ReportsErrors ErrorReads
    refine forall₂_congr fun code msg => forall₃_congr fun hretCode hcode hretMsg => ?_
    exact reports_iff hparse hcode (hstrings.present "" hretMsg)

/-! ### Three bodies -/

/-- The text of an error, with the text of its result, and the value that it stands for. -/
def errorText (result : String) : String :=
  "\x7b\"result\":" ++ result ++ ",\"retCode\":10001,\"retMsg\":\"params error\"\x7d"

def errorJson (result : Json) : Json :=
  .object [("result", result), ("retCode", .integer 10001), ("retMsg", .string "params error")]

/-- The parser on an empty object and on two errors. -/
def errorBodies : JsonText where
  parse body :=
    if body = "\x7b\x7d" then .ok (.object [])
    else if body = errorText "\x7b\x7d" then .ok (errorJson (.object []))
    else if body = errorText "[]" then .ok (errorJson (.array []))
    else .error (.json "parse_error.101")
  dump _ := ""

theorem errors_recognised_iff_emptyResult :
    ReturnsOnSuccess errorBodies (.documented fun _ => none) (.documented fun _ => none)
        .OrderId (answer (errorText "\x7b\x7d")) (errorJson (.object [])) ∧
      ReportsErrors errorBodies (.documented fun _ => none) (.documented fun _ => none)
        .OrderId (answer (errorText "\x7b\x7d")) (errorJson (.object [])) := by
  refine (errors_recognised_iff (VkCommon.documented_checks _)
    (ReplyReaders.documented_checks _) (VkCommon.documented_readsStrings _) .OrderId ?_).mpr ?_
  · rfl
  · constructor
    · intro hretCode henvelope
      refine ⟨id, fun hzero => ?_⟩
      exact absurd (Except.ok.inj hzero) (by decide)
    · intro code msg hretCode hcode hretMsg
      obtain rfl := Json.integer.inj (Option.some.inj hretCode)
      refine ⟨rfl, ⟨0, rfl⟩, ReplyType.succeeds_ofResult_iff _ |>.mp ⟨⟨"", ""⟩, rfl⟩⟩

/-- The parser on the error with a list for its result. -/
theorem errorBodies_list :
    errorBodies.parse (answer (errorText "[]")).body = .ok (errorJson (.array [])) := by
  rfl

/-- **Missed errors.**  A body without a return code is a success, and an error whose result
    is a list is not reported as such. -/
theorem api_error_missed :
    (¬ ∀ (text : JsonText) (common : VkCommon) (readers : ReplyReaders),
      common.Checks → readers.Checks → common.ReadsStrings → readers.LeavesAbsent →
        ∀ (type : ReplyType) (response : HttpResponse) (json : Json),
          text.parse response.body = .ok json →
            ReturnsOnSuccess text common readers type response json) ∧
    ¬ ∀ (text : JsonText) (common : VkCommon) (readers : ReplyReaders),
      common.Checks → readers.Checks → common.ReadsStrings → readers.LeavesAbsent →
        ∀ (type : ReplyType) (response : HttpResponse) (json : Json),
          text.parse response.body = .ok json →
            ReportsErrors text common readers type response json := by
  constructor
  · intro h
    have hcode := h errorBodies (.documented fun _ => none) (.documented fun _ => none)
      (VkCommon.documented_checks _) (ReplyReaders.documented_checks _)
      (VkCommon.documented_readsStrings _) (ReplyReaders.documented_leavesAbsent _)
      .Response (answer "\x7b\x7d") (.object []) rfl (.inl ⟨(), rfl⟩)
    cases hcode
  · intro h
    have hthrows := h errorBodies (.documented fun _ => none) (.documented fun _ => none)
      (VkCommon.documented_checks _) (ReplyReaders.documented_checks _)
      (VkCommon.documented_readsStrings _) (ReplyReaders.documented_leavesAbsent _)
      .OrdersResponse (answer (errorText "[]")) (errorJson (.array [])) rfl 10001 "params error"
      rfl (by decide) rfl
    rw [handleBybitResponse, errorBodies_list] at hthrows
    cases hthrows

end BybitApi
