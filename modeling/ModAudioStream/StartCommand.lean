import ModAudioStream.StreamFunction
import ModAudioStream.UrlParsers

namespace ModAudioStream

/-- The arguments with which a start command gets as far as `start_capture`. -/
structure StartedBy (calls : CommandCalls) (argv : List CString) (request : StartRequest) :
    Prop where
  session : ∃ uuid command args, argv = uuid :: command :: args ∧ calls.locate uuid = true ∧
    sameWord command "start" = true
  mix : ∃ mixType ∈ argv[3]?, mixFlags mixType = some (request.writeStream, request.stereo)
  uri : ∃ url ∈ argv[2]?, validateWsUri url = some request.wsUri
  sampling : request.sampling = samplingOf argv[4]?
  rate : request.sampling.tmod 8000 = 0
  metadata : request.metadata = argv[5]?
  valid : ∀ metadata ∈ argv[5]?, validText metadata = true

/-- The effect of a `start_capture`. -/
def CommandEffect.request : CommandEffect → Option StartRequest
  | performed (.startCapture request) _ => some request
  | _ => none

section

variable {calls : CommandCalls} {argv : List CString} {command : CString}
  {request : StartRequest}

theorem mem_request_perform {op : Operation} :
    request ∈ (perform calls op).1.filterMap CommandEffect.request ↔
      op = .startCapture request := by
  cases op with
  | startCapture other =>
    change request ∈ [other] ↔ _
    rw [List.mem_singleton, Operation.startCapture.injEq, eq_comm]
  | stop | pauseresume | breakSession | sendText => exact iff_of_false List.not_mem_nil nofun

theorem startMixed_request {flags : Bool × Bool} :
    request ∈ (startMixed calls argv flags).1.filterMap CommandEffect.request ↔
      (∃ url ∈ argv[2]?, validateWsUri url = some request.wsUri) ∧
        request.sampling = samplingOf argv[4]? ∧ request.sampling.tmod 8000 = 0 ∧
          request.metadata = argv[5]? ∧ flags = (request.writeStream, request.stereo) := by
  unfold startMixed
  dsimp only
  cases argv[2]? with
  | none => simp
  | some url =>
    dsimp only
    cases huri : validateWsUri url with
    | none => simp [huri, CommandEffect.request]
    | some wsUri =>
      dsimp only
      split
      next hrate =>
        refine iff_of_false (by simp [CommandEffect.request]) ?_
        rintro ⟨-, hsampling, hmod, -⟩
        rw [hsampling] at hmod
        exact hrate hmod
      next hrate =>
        rw [mem_request_perform, Operation.startCapture.injEq]
        constructor
        · intro h
          rw [← h]
          exact ⟨⟨url, rfl, huri⟩, rfl, not_not.mp hrate, rfl, rfl⟩
        · rintro ⟨⟨url', hurl', huri'⟩, hsampling, -, hmetadata, rfl⟩
          cases hurl'
          obtain ⟨writeStream, stereo, wsUri', sampling, metadata⟩ := request
          cases huri.symm.trans huri'
          rw [← hsampling, ← hmetadata]

theorem startCommand_request :
    request ∈ (startCommand calls argv).1.filterMap CommandEffect.request ↔
      (∀ metadata ∈ argv[5]?, validText metadata = true) ∧
        ∃ mixType ∈ argv[3]?, ∃ flags, mixFlags mixType = some flags ∧
          request ∈ (startMixed calls argv flags).1.filterMap CommandEffect.request := by
  unfold startCommand
  cases hmetadata : argv[5]?.filter (!validText ·) with
  | some metadata =>
    obtain ⟨hmem, hinvalid⟩ := Option.filter_eq_some_iff.mp hmetadata
    refine iff_of_false List.not_mem_nil ?_
    rintro ⟨hvalid, -⟩
    rw [hvalid metadata hmem] at hinvalid
    cases hinvalid
  | none =>
    have hvalid : ∀ metadata ∈ argv[5]?, validText metadata = true := by
      intro metadata hmem
      simpa using Option.filter_eq_none_iff.mp hmetadata metadata hmem
    rw [and_iff_right hvalid]
    cases argv[3]? with
    | none => simp
    | some mixType =>
      dsimp only
      cases hflags : mixFlags mixType with
      | none => simp [hflags, refuse, CommandEffect.request]
      | some flags =>
        constructor
        · intro h
          exact ⟨mixType, rfl, flags, hflags, h⟩
        · rintro ⟨mixType', hmix, flags', hflags', h⟩
          cases hmix
          cases hflags.symm.trans hflags'
          exact h

theorem stopCommand_request :
    request ∉ (stopCommand calls argv).1.filterMap CommandEffect.request := by
  unfold stopCommand
  split
  next =>
    split
    next => exact List.not_mem_nil
    next => rw [mem_request_perform]; exact nofun
  next => rw [mem_request_perform]; exact nofun

theorem sendTextCommand_request :
    request ∉ (sendTextCommand calls argv).1.filterMap CommandEffect.request := by
  unfold sendTextCommand
  split
  next =>
    split
    next => exact List.not_mem_nil
    next => rw [mem_request_perform]; exact nofun
  next => exact List.not_mem_nil

theorem perform_request {op : Operation} (h : ∀ request, op ≠ .startCapture request) :
    request ∉ (perform calls op).1.filterMap CommandEffect.request := by
  rw [mem_request_perform]
  exact h request

/-- No other sub-command calls `start_capture`. -/
theorem subCommand_request :
    request ∈ (subCommand calls argv command).1.filterMap CommandEffect.request ↔
      sameWord command "start" = true ∧
        request ∈ (startCommand calls argv).1.filterMap CommandEffect.request := by
  have hnone {a : String} (ha : sameWord command a = true) (hne : ascii a ≠ ascii "start") :
      ¬sameWord command "start" = true := by
    rw [sameWord_unique ha hne]
    exact Bool.false_ne_true
  unfold subCommand
  split
  next hstop => exact iff_of_false stopCommand_request fun h => hnone hstop (by decide) h.1
  next =>
    split
    next hpause =>
      exact iff_of_false (perform_request nofun) fun h => hnone hpause (by decide) h.1
    next =>
      split
      next hresume =>
        exact iff_of_false (perform_request nofun) fun h => hnone hresume (by decide) h.1
      next =>
        split
        next hbreak =>
          exact iff_of_false (perform_request nofun) fun h => hnone hbreak (by decide) h.1
        next =>
          split
          next hsend =>
            exact iff_of_false sendTextCommand_request fun h => hnone hsend (by decide) h.1
          next =>
            split
            next hstart => exact (and_iff_right hstart).symm
            next hstart => exact iff_of_false List.not_mem_nil fun h => hstart h.1

theorem onSession_request {uuid : CString} :
    request ∈ (onSession calls argv uuid command).effects.filterMap CommandEffect.request ↔
      calls.locate uuid = true ∧
        request ∈ (subCommand calls argv command).1.filterMap CommandEffect.request := by
  unfold onSession
  split
  next hfound =>
    rw [and_iff_right hfound]
    match subCommand calls argv command with
    | (effects, .gotoDone) => rfl
    | (effects, .crash) => rfl
    | (effects, .fallThrough status) =>
      have htail : [CommandEffect.rwunlocked, .replied (if status then .ok else .err)].filterMap
          CommandEffect.request = [] := rfl
      change request ∈ (effects ++ [_, _]).filterMap CommandEffect.request ↔ _
      rw [List.filterMap_append, htail, List.append_nil]
  next hlost => exact iff_of_false List.not_mem_nil fun h => hlost h.1

/-- A command calls `start_capture` with a request exactly when its arguments start it. -/
theorem request_iff (calls : CommandCalls) (cmd : CString) (request : StartRequest) :
    request ∈ (streamFunction calls cmd).effects.filterMap CommandEffect.request ↔
      StartedBy calls (argvOf calls cmd) request := by
  change request ∈ (dispatch calls cmd (argvOf calls cmd)).effects.filterMap _ ↔ _
  match argvOf calls cmd with
  | [] =>
    refine iff_of_false List.not_mem_nil fun h => ?_
    obtain ⟨uuid, command, args, heq, -⟩ := h.session
    cases heq
  | [uuid] =>
    refine iff_of_false List.not_mem_nil fun h => ?_
    obtain ⟨uuid', command, args, heq, -⟩ := h.session
    cases heq
  | uuid :: command :: args =>
    rw [dispatch]
    split
    next husage =>
      refine iff_of_false List.not_mem_nil fun h => ?_
      obtain ⟨mixType, hmix, -⟩ := h.mix
      have hargc := (List.getElem?_eq_some_iff.mp hmix).1
      omega
    next =>
      rw [onSession_request, subCommand_request, startCommand_request]
      constructor
      · rintro ⟨hfound, hstart, hvalid, mixType, hmix, flags, hflags, h⟩
        obtain ⟨huri, hsampling, hrate, hmetadata, rfl⟩ := startMixed_request.mp h
        exact ⟨⟨uuid, command, args, rfl, hfound, hstart⟩, ⟨mixType, hmix, hflags⟩, huri,
          hsampling, hrate, hmetadata, hvalid⟩
      · intro h
        obtain ⟨uuid', command', args', heq, hfound, hstart⟩ := h.session
        cases heq
        obtain ⟨mixType, hmix, hflags⟩ := h.mix
        exact ⟨hfound, hstart, h.valid, mixType, hmix, _, hflags,
          startMixed_request.mpr ⟨h.uri, h.sampling, h.rate, h.metadata, rfl⟩⟩

end

theorem onSession_performed {calls : CommandCalls} {argv : List CString} {uuid command : CString}
    {op : Operation} {success : Bool}
    (h : .performed op success ∈ (onSession calls argv uuid command).effects) :
    success = calls.perform op := by
  have hends := @subCommand_ends calls argv command
  unfold onSession at h
  split at h
  next =>
    generalize subCommand calls argv command = out at hends h
    cases hends with
    | refused text => simp [refuse] at h
    | failed text => simp at h
    | performed op' =>
      simp only [perform, List.cons_append, List.nil_append, List.mem_cons, reduceCtorEq,
        CommandEffect.performed.injEq, List.not_mem_nil, or_false, false_or] at h
      rw [h.1]
      exact h.2
    | crashed => simp at h
  next => simp at h

/-- What an operation is reported to return is what it returns. -/
theorem performed_success {calls : CommandCalls} {cmd : CString} {op : Operation} {success : Bool}
    (h : .performed op success ∈ (streamFunction calls cmd).effects) :
    success = calls.perform op := by
  rw [streamFunction] at h
  rcases List.mem_cons.mp h with h | h
  · cases h
  · unfold dispatch at h
    split at h
    next =>
      split at h
      next => simp [usageEffects] at h
      next => exact onSession_performed h
    next => simp [usageEffects] at h

theorem performed_of_request {calls : CommandCalls} {cmd : CString} {request : StartRequest}
    (h : request ∈ (streamFunction calls cmd).effects.filterMap CommandEffect.request) :
    .performed (.startCapture request) (calls.perform (.startCapture request)) ∈
      (streamFunction calls cmd).effects := by
  obtain ⟨effect, hmem, heffect⟩ := List.mem_filterMap.mp h
  unfold CommandEffect.request at heffect
  split at heffect
  next other success =>
    cases heffect
    rwa [performed_success hmem] at hmem
  next => cases heffect

/-- Calls that find these arguments and the session, and succeed. -/
def CommandCalls.granting (argv : List CString) : CommandCalls :=
  ⟨fun _ => argv, fun _ => true, fun _ => true⟩

/-- `<uuid> start <url> mono` with more arguments. -/
def monoStart (url : CString) (rest : List CString) : List CString :=
  ⟨ascii "uuid", by decide⟩ :: ⟨ascii "start", by decide⟩ :: url ::
    ⟨ascii "mono", by decide⟩ :: rest

theorem validateWsUri_host {url : CString} {path : List UInt8}
    (h : url.bytes = ascii "ws://host" ++ path) (hpath : ∀ c ∈ path.head?, c = 0x2F) :
    validateWsUri url = some (strncpy url (maxWsUri - 1) ++ [0]) := by
  let u : WsUri :=
    ⟨false, ascii "host", none, path, by decide, List.all_eq_true.mp (by decide), nofun, hpath⟩
  exact (WsUri.validateWsUri_iff url _).mpr ⟨⟨u, by rw [h]; rfl⟩, rfl⟩

theorem monoStart_request {cmd url : CString} {rest : List CString} {wsUri : List UInt8}
    (hcmd : cmd.bytes ≠ []) (huri : validateWsUri url = some wsUri)
    (hrate : (samplingOf rest[0]?).tmod 8000 = 0)
    (hvalid : ∀ metadata ∈ rest[1]?, validText metadata = true) :
    ⟨false, false, wsUri, samplingOf rest[0]?, rest[1]?⟩ ∈
      (streamFunction (.granting (monoStart url rest)) cmd).effects.filterMap
        CommandEffect.request := by
  have hargv : argvOf (.granting (monoStart url rest)) cmd = monoStart url rest := by
    rw [argvOf, if_neg]
    · rfl
    · intro hnil
      exact hcmd (List.isEmpty_iff.mp hnil)
  have hmix : mixFlags ⟨ascii "mono", by decide⟩ = some (false, false) := by decide
  rw [request_iff, hargv]
  exact ⟨⟨_, _, _, rfl, rfl, by decide⟩, ⟨_, rfl, hmix⟩, ⟨url, rfl, huri⟩, rfl, hrate, rfl,
    hvalid⟩

end ModAudioStream
