import ModAudioStream.ProcessMessage

namespace ModAudioStream

theorem find?_eraseP {α : Type*} {p q : α → Bool} (h : ∀ x, p x = true → q x = false)
    (l : List α) : (l.eraseP p).find? q = l.find? q := by
  induction l with
  | nil => rfl
  | cons x l ih =>
    by_cases hp : p x = true
    · have hq : ¬q x = true := by simp [h x hp]
      rw [List.eraseP_cons_of_pos hp, List.find?_cons_of_neg hq]
    · rw [List.eraseP_cons_of_neg hp]
      by_cases hq : q x = true
      · rw [List.find?_cons_of_pos hq, List.find?_cons_of_pos hq]
      · rw [List.find?_cons_of_neg hq, List.find?_cons_of_neg hq]
        exact ih

theorem eraseP_eq_filter {α : Type*} {p : α → Bool} {l : List α}
    (h : (l.filter p).length ≤ 1) : l.eraseP p = l.filter fun x => !p x := by
  induction l with
  | nil => rfl
  | cons x l ih =>
    by_cases hp : p x = true
    · rw [List.filter_cons_of_pos hp, List.length_cons] at h
      have hnone : l.filter p = [] := List.eq_nil_of_length_eq_zero (by omega)
      have hkeep : (l.filter fun x => !p x) = l := by
        refine List.filter_eq_self.mpr fun y hy => ?_
        simpa using List.filter_eq_nil_iff.mp hnone y hy
      rw [List.eraseP_cons_of_pos hp, List.filter_cons_of_neg (by simp [hp]), hkeep]
    · rw [List.filter_cons_of_neg hp] at h
      rw [List.eraseP_cons_of_neg hp, List.filter_cons_of_pos (by simp [hp]), ih h]

namespace CJson

/-- The object without its members of that name. -/
def without (json : CJson) (name : List UInt8) : CJson :=
  match json with
  | .object members => .object (members.filter fun m => !sameName name m.1)
  | json => json

theorem getObjectItem_detachItem (json : CJson) {name other : List UInt8}
    (h : other.map toLower ≠ name.map toLower) :
    (json.detachItem name).getObjectItem other = json.getObjectItem other := by
  cases json with
  | object members =>
    have hdisjoint : ∀ m : List UInt8 × CJson, sameName name m.1 = true →
        sameName other m.1 = false := by
      intro m hname
      simp only [sameName, beq_iff_eq] at hname
      simp only [sameName, beq_eq_false_iff_ne]
      rw [← hname]
      exact h
    simp only [detachItem, getObjectItem, find?_eraseP hdisjoint]
  | null | bool | number | string | array => rfl

/-- With one member of the name, taking it out leaves none. -/
theorem detachItem_eq_without {members : List (List UInt8 × CJson)} {name : List UInt8}
    (h : (members.filter fun m => sameName name m.1).length ≤ 1) :
    (CJson.object members).detachItem name = (CJson.object members).without name :=
  congrArg CJson.object (eraseP_eq_filter h)

end CJson

/-- The message is a `streamAudio` message with this data. -/
def IsStreamAudio (libs : MessageLibs) (message : CString) (data : CJson) : Prop :=
  ∃ root, libs.parse message.bytes = some root ∧
    root.getObjectCstr (ascii "type") = some (ascii "streamAudio") ∧
      root.getObjectItem (ascii "data") = some data

/-- The data of a `streamAudio` message that is accepted, and what its audio decodes to. -/
structure Playable (libs : MessageLibs) (data : CJson) (decoded : List UInt8) : Prop where
  audio : ∃ text, data.getObjectCstr (ascii "audioData") = some text ∧
    base64Decode text = .ok decoded
  supported : audioType data ∈ supportedTypes
  rate : audioType data = ascii "raw" → isRawRate (rateOf data 0) = true
  printed : (libs.print (data.detachItem (ascii "audioData"))).isSome = true

/-- What is to be fired for a message: the printed data without the audio for a `streamAudio`
message that is accepted, the message itself for any other. -/
def EventLaw (libs : MessageLibs) (sid : List UInt8) (message : CString)
    (events : List (MessageEvent × CString)) : Prop :=
  (∀ data, IsStreamAudio libs message data → (processMessage libs sid message).ok = true →
    ∃ body, libs.print (data.without (ascii "audioData")) = some body ∧
      events = [(.play, body)]) ∧
  ((∀ data, IsStreamAudio libs message data → (processMessage libs sid message).ok = false) →
    events = [(.json, message)])

section

variable {libs : MessageLibs} {sid : List UInt8} {root data : CJson} {decoded : List UInt8}

/-- The result for data that is accepted. -/
def playResult (libs : MessageLibs) (data : CJson) (decoded : List UInt8) (body : CString) :
    ProcessResult :=
  { ProcessResult.initial.setAudio libs (audioType data) (rateOf data 0) decoded with
    rewrittenJsonData := body, ok := true }

theorem rateOf_detachItem (data : CJson) (default : Int) :
    rateOf (data.detachItem (ascii "audioData")) default = rateOf data default := by
  rw [rateOf, CJson.getObjectItem_detachItem data (by decide)]
  rfl

theorem processStreamAudio_playable {body : CString}
    (hdata : root.getObjectItem (ascii "data") = some data) (h : Playable libs data decoded)
    (hbody : libs.print (data.detachItem (ascii "audioData")) = some body) :
    processStreamAudio libs sid root = playResult libs data decoded body := by
  obtain ⟨text, htext, hdecode⟩ := h.audio
  obtain ⟨audio, haudio, hstring⟩ := Option.bind_eq_some_iff.mp htext
  have hrate : ¬(audioType data = ascii "raw" ∧ isRawRate (rateOf data 0) = false) := by
    rintro ⟨htype, hfalse⟩
    rw [h.rate htype] at hfalse
    cases hfalse
  simp only [processStreamAudio, hdata, haudio, hstring, rateOf_detachItem, hdecode, hbody]
  rw [if_neg (not_not.mpr h.supported), if_neg hrate]
  rfl

theorem processStreamAudio_ok (h : (processStreamAudio libs sid root).ok = true) :
    ∃ data decoded, root.getObjectItem (ascii "data") = some data ∧
      Playable libs data decoded := by
  unfold processStreamAudio at h
  dsimp only at h
  split at h
  next => cases h
  next data hdata =>
    split at h
    next => cases h
    next audio haudio =>
      split at h
      next => cases h
      next text htext =>
        split at h
        next => cases h
        next hsupported =>
          split at h
          next => cases h
          next hrate =>
            split at h
            next => cases h
            next decoded hdecode =>
              split at h
              next =>
                unfold ProcessResult.setAudio at h
                split at h
                · cases h
                · split at h
                  · cases h
                  · cases h
              next body hbody =>
                rw [rateOf_detachItem] at hrate
                refine ⟨data, decoded, hdata, ⟨text, ?_, hdecode⟩, not_not.mp hsupported,
                  fun htype => ?_, ?_⟩
                · rw [CJson.getObjectCstr, haudio]
                  exact htext
                · simpa [htype] using hrate
                · rw [hbody]
                  rfl

/-- The result looks like that of a `rawAudio` message when the audio comes to nothing. -/
theorem playResult_silent_iff (body : CString) :
    ((playResult libs data decoded body).audioDataType = ascii "raw" ∧
      (playResult libs data decoded body).decodedAudio = []) ↔
      (audioType data = ascii "raw" ∧ decoded = []) ∨
        (audioType data = ascii "opus" ∧ libs.opusDecode decoded = []) := by
  unfold playResult ProcessResult.setAudio
  split
  next htype =>
    have hopus : audioType data ≠ ascii "opus" := by
      intro hopus
      rw [hopus] at htype
      exact absurd htype (by decide)
    simp [hopus]
  next htype =>
    have hraw : audioType data ≠ ascii "raw" := fun hraw => htype (Or.inl hraw)
    split
    next hopus =>
      constructor
      · rintro ⟨-, hnil⟩
        exact Or.inr ⟨hopus, hnil⟩
      · rintro (⟨h, -⟩ | ⟨-, hnil⟩)
        · exact absurd h hraw
        · exact ⟨rfl, hnil⟩
    next hopus =>
      constructor
      · rintro ⟨hnil, -⟩
        cases hnil
      · rintro (⟨h, -⟩ | ⟨h, -⟩)
        · exact absurd h hraw
        · exact absurd h hopus

theorem Playable.decoded_eq {other : List UInt8} (h : Playable libs data decoded)
    (h' : Playable libs data other) : decoded = other := by
  obtain ⟨text, htext, hdecode⟩ := h.audio
  obtain ⟨text', htext', hdecode'⟩ := h'.audio
  obtain rfl := Option.some.inj (htext.symm.trans htext')
  exact Except.ok.inj (hdecode.symm.trans hdecode')

theorem Playable.decoded_eq_nil_iff (h : Playable libs data decoded) :
    decoded = [] ↔ data.getObjectCstr (ascii "audioData") = some [] := by
  obtain ⟨text, htext, hdecode⟩ := h.audio
  rw [htext, Option.some.injEq]
  constructor
  · rintro rfl
    exact base64Decode_eq_nil hdecode
  · rintro rfl
    exact (Except.ok.inj hdecode).symm

end

/-- What a message may be for its event to be the right one: no `rawAudio` message, and when it
is a `streamAudio` message that is accepted, one whose audio is not nothing and whose data
prints alike with one or all of its `audioData` members taken out. -/
structure Reported (libs : MessageLibs) (message : CString) : Prop where
  notRaw : ∀ root, libs.parse message.bytes = some root →
    root.getObjectCstr (ascii "type") ≠ some (ascii "rawAudio")
  rawAudible : ∀ data decoded, IsStreamAudio libs message data → Playable libs data decoded →
    audioType data = ascii "raw" → data.getObjectCstr (ascii "audioData") ≠ some []
  opusAudible : ∀ data decoded, IsStreamAudio libs message data → Playable libs data decoded →
    audioType data = ascii "opus" → libs.opusDecode decoded ≠ []
  single : ∀ data decoded, IsStreamAudio libs message data → Playable libs data decoded →
    libs.print (data.detachItem (ascii "audioData")) =
      libs.print (data.without (ascii "audioData"))

section

variable {libs : MessageLibs} {sid : List UInt8} {message : CString}

theorem Reported.of_not_playable
    (hraw : ∀ root, libs.parse message.bytes = some root →
      root.getObjectCstr (ascii "type") ≠ some (ascii "rawAudio"))
    (hnone : ∀ data decoded, IsStreamAudio libs message data → ¬Playable libs data decoded) :
    Reported libs message where
  notRaw := hraw
  rawAudible data decoded hdata h := absurd h (hnone data decoded hdata)
  opusAudible data decoded hdata h := absurd h (hnone data decoded hdata)
  single data decoded hdata h := absurd h (hnone data decoded hdata)

/-- A message is neither of the two kinds, or of one of them. -/
theorem processMessage_cases (libs : MessageLibs) (sid : List UInt8) (message : CString) :
    (processMessage libs sid message = {} ∧ ∀ root, libs.parse message.bytes = some root →
      root.getObjectCstr (ascii "type") ≠ some (ascii "rawAudio") ∧
        root.getObjectCstr (ascii "type") ≠ some (ascii "streamAudio")) ∨
    ∃ root, libs.parse message.bytes = some root ∧
      ((root.getObjectCstr (ascii "type") = some (ascii "rawAudio") ∧
          processMessage libs sid message = processRawAudio root) ∨
        (root.getObjectCstr (ascii "type") = some (ascii "streamAudio") ∧
          processMessage libs sid message = processStreamAudio libs sid root)) := by
  unfold processMessage
  cases hroot : libs.parse message.bytes with
  | none => exact Or.inl ⟨rfl, fun root h => (by cases h)⟩
  | some root =>
    dsimp only
    cases htype : root.getObjectCstr (ascii "type") with
    | none =>
      refine Or.inl ⟨rfl, fun root' h => ?_⟩
      obtain rfl := Option.some.inj h
      rw [htype]
      exact ⟨fun h => (by cases h), fun h => (by cases h)⟩
    | some jsonType =>
      dsimp only
      by_cases hraw : jsonType = ascii "rawAudio"
      · refine Or.inr ⟨root, rfl, Or.inl ⟨htype.trans (congrArg some hraw), ?_⟩⟩
        rw [if_pos hraw]
      · by_cases hstream : jsonType = ascii "streamAudio"
        · refine Or.inr ⟨root, rfl, Or.inr ⟨htype.trans (congrArg some hstream), ?_⟩⟩
          rw [if_neg hraw, if_neg (not_not.mpr hstream)]
        · refine Or.inl ⟨?_, fun root' h => ?_⟩
          · rw [if_neg hraw, if_pos hstream]
          · obtain rfl := Option.some.inj h
            rw [htype]
            exact ⟨fun h => hraw (Option.some.inj h), fun h => hstream (Option.some.inj h)⟩

/-- The result for a `streamAudio` message that is accepted. -/
theorem processMessage_playable {data : CJson} {decoded : List UInt8} {body : CString}
    (sid : List UInt8) (hmessage : IsStreamAudio libs message data)
    (h : Playable libs data decoded)
    (hbody : libs.print (data.detachItem (ascii "audioData")) = some body) :
    processMessage libs sid message = playResult libs data decoded body := by
  obtain ⟨root, hroot, htype, hdata⟩ := hmessage
  rcases processMessage_cases libs sid message with ⟨-, hother⟩ | ⟨root', hroot', hkind⟩
  · exact absurd htype (hother root hroot).2
  · obtain rfl := Option.some.inj (hroot.symm.trans hroot')
    rcases hkind with ⟨hraw, -⟩ | ⟨-, hpr⟩
    · rw [htype] at hraw
      exact absurd hraw (by decide)
    · rw [hpr]
      exact processStreamAudio_playable hdata h hbody

theorem playable_of_ok {data : CJson} (hmessage : IsStreamAudio libs message data)
    (hok : (processMessage libs sid message).ok = true) :
    ∃ decoded, Playable libs data decoded := by
  obtain ⟨root, hroot, htype, hdata⟩ := hmessage
  rcases processMessage_cases libs sid message with ⟨hpr, -⟩ | ⟨root', hroot', hkind⟩
  · rw [hpr] at hok
    cases hok
  · obtain rfl := Option.some.inj (hroot.symm.trans hroot')
    rcases hkind with ⟨hraw, -⟩ | ⟨-, hpr⟩
    · rw [htype] at hraw
      exact absurd hraw (by decide)
    · rw [hpr] at hok
      obtain ⟨other, decoded, hother, h⟩ := processStreamAudio_ok hok
      obtain rfl := Option.some.inj (hdata.symm.trans hother)
      exact ⟨decoded, h⟩

variable {ρ : Type*} (speex : Speex ρ) (native : NativeRate) (r : StreamerAudio ρ) (initOk : Bool)

theorem messageCallback_refused (h : (processMessage libs sid message).ok = false) :
    (r.messageCallback speex native libs sid true initOk message).2 = [(.json, message)] := by
  simp [StreamerAudio.messageCallback, h]

theorem messageCallback_silent (h : (processMessage libs sid message).ok = true)
    (hsilent : (processMessage libs sid message).audioDataType = ascii "raw" ∧
      (processMessage libs sid message).decodedAudio = []) :
    (r.messageCallback speex native libs sid true initOk message).2 =
      [(.json, (processMessage libs sid message).rewrittenJsonData)] := by
  simp [StreamerAudio.messageCallback, h, hsilent]

theorem messageCallback_plays (h : (processMessage libs sid message).ok = true)
    (hsilent : ¬((processMessage libs sid message).audioDataType = ascii "raw" ∧
      (processMessage libs sid message).decodedAudio = [])) :
    (r.messageCallback speex native libs sid true initOk message).2 =
      [(.play, (processMessage libs sid message).rewrittenJsonData)] := by
  unfold StreamerAudio.messageCallback
  simp only [h, if_true, Bool.not_true, Bool.false_eq_true, if_false, if_neg hsilent]
  split
  · rfl
  · rfl

theorem IsStreamAudio.eq {root data other : CJson} (hroot : libs.parse message.bytes = some root)
    (hdata : root.getObjectItem (ascii "data") = some data)
    (h : IsStreamAudio libs message other) : other = data := by
  obtain ⟨root', hroot', -, hother⟩ := h
  obtain rfl := Option.some.inj (hroot.symm.trans hroot')
  exact Option.some.inj (hother.symm.trans hdata)

theorem not_isStreamAudio {root : CJson} (hroot : libs.parse message.bytes = some root)
    (htype : root.getObjectCstr (ascii "type") ≠ some (ascii "streamAudio")) (data : CJson) :
    ¬IsStreamAudio libs message data := by
  rintro ⟨root', hroot', hstream, -⟩
  obtain rfl := Option.some.inj (hroot.symm.trans hroot')
  exact htype hstream

theorem eventLaw_refused (h : (processMessage libs sid message).ok = false) :
    EventLaw libs sid message
      (r.messageCallback speex native libs sid true initOk message).2 := by
  rw [messageCallback_refused speex native r initOk h]
  refine ⟨fun data _ hok => ?_, fun _ => rfl⟩
  rw [h] at hok
  cases hok

/-- The event of a `rawAudio` message has the empty body. -/
theorem not_eventLaw_rawAudio {root : CJson} (hroot : libs.parse message.bytes = some root)
    (htype : root.getObjectCstr (ascii "type") = some (ascii "rawAudio"))
    (hpr : processMessage libs sid message = processRawAudio root) :
    ¬EventLaw libs sid message
      (r.messageCallback speex native libs sid true initOk message).2 := by
  rintro ⟨-, hlaw⟩
  have hother : ∀ data, ¬IsStreamAudio libs message data := by
    refine not_isStreamAudio hroot ?_
    rw [htype]
    decide
  have hevents := hlaw fun data hdata => absurd hdata (hother data)
  have hok : (processMessage libs sid message).ok = true := by rw [hpr]; rfl
  have hsilent : (processMessage libs sid message).audioDataType = ascii "raw" ∧
      (processMessage libs sid message).decodedAudio = [] := by
    rw [hpr]
    exact ⟨rfl, rfl⟩
  rw [messageCallback_silent speex native r initOk hok hsilent, hpr] at hevents
  have hbody : CString.bytes ⟨[], by decide⟩ = message.bytes :=
    congrArg CString.bytes (Prod.mk.inj (List.cons.inj hevents).1).2
  rw [← hbody, libs.parse_nil] at hroot
  cases hroot

theorem eventLaw_playable_iff {root data : CJson} {decoded : List UInt8}
    (hroot : libs.parse message.bytes = some root)
    (htype : root.getObjectCstr (ascii "type") = some (ascii "streamAudio"))
    (hdata : root.getObjectItem (ascii "data") = some data) (h : Playable libs data decoded)
    (hpr : processMessage libs sid message = processStreamAudio libs sid root) :
    EventLaw libs sid message
        (r.messageCallback speex native libs sid true initOk message).2 ↔
      ¬((audioType data = ascii "raw" ∧ decoded = []) ∨
        (audioType data = ascii "opus" ∧ libs.opusDecode decoded = [])) ∧
      libs.print (data.detachItem (ascii "audioData")) =
        libs.print (data.without (ascii "audioData")) := by
  obtain ⟨body, hbody⟩ := Option.isSome_iff_exists.mp h.printed
  rw [processStreamAudio_playable hdata h hbody] at hpr
  have hok : (processMessage libs sid message).ok = true := by rw [hpr]; rfl
  have hstream : IsStreamAudio libs message data := ⟨root, hroot, htype, hdata⟩
  rw [← playResult_silent_iff body, ← hpr, hbody]
  constructor
  · intro hlaw
    obtain ⟨body', hbody', hevents⟩ := hlaw.1 data hstream hok
    by_cases hsilent : (processMessage libs sid message).audioDataType = ascii "raw" ∧
        (processMessage libs sid message).decodedAudio = []
    · rw [messageCallback_silent speex native r initOk hok hsilent] at hevents
      cases (Prod.mk.inj (List.cons.inj hevents).1).1
    · rw [messageCallback_plays speex native r initOk hok hsilent, hpr] at hevents
      have heq : body = body' := (Prod.mk.inj (List.cons.inj hevents).1).2
      exact ⟨hsilent, by rw [heq, hbody']⟩
  · rintro ⟨hsilent, hsame⟩
    constructor
    · intro other hother _
      obtain rfl := hother.eq hroot hdata
      refine ⟨body, hsame.symm, ?_⟩
      rw [messageCallback_plays speex native r initOk hok hsilent, hpr]
      rfl
    · intro hrefused
      rw [hrefused data hstream] at hok
      cases hok

/-- A message fires its event, and no other one, if and only if it is `Reported`. -/
theorem message_event_iff (libs : MessageLibs) (sid : List UInt8) (message : CString) :
    EventLaw libs sid message
        (r.messageCallback speex native libs sid true initOk message).2 ↔
      Reported libs message := by
  rcases processMessage_cases libs sid message with ⟨hpr, hother⟩ | ⟨root, hroot, hkind⟩
  · have hnone : ∀ data, ¬IsStreamAudio libs message data := by
      rintro data ⟨root, hroot, hstream, -⟩
      exact (hother root hroot).2 hstream
    refine iff_of_true (eventLaw_refused speex native r initOk (by rw [hpr])) ?_
    exact .of_not_playable (fun root hroot => (hother root hroot).1)
      fun data decoded hdata => absurd hdata (hnone data)
  · rcases hkind with ⟨htype, hpr⟩ | ⟨htype, hpr⟩
    · refine iff_of_false (not_eventLaw_rawAudio speex native r initOk hroot htype hpr) ?_
      intro hreported
      exact hreported.notRaw root hroot htype
    · have hnotRaw : ∀ root', libs.parse message.bytes = some root' →
          root'.getObjectCstr (ascii "type") ≠ some (ascii "rawAudio") := by
        intro root' hroot'
        obtain rfl := Option.some.inj (hroot.symm.trans hroot')
        rw [htype]
        decide
      by_cases hplay : ∃ data decoded, root.getObjectItem (ascii "data") = some data ∧
          Playable libs data decoded
      · obtain ⟨data, decoded, hdata, h⟩ := hplay
        have hstream : IsStreamAudio libs message data := ⟨root, hroot, htype, hdata⟩
        rw [eventLaw_playable_iff speex native r initOk hroot htype hdata h hpr]
        constructor
        · rintro ⟨hsilent, hsame⟩
          refine ⟨hnotRaw, ?_, ?_, ?_⟩
          · intro other decoded' hother h' hraw htext
            obtain rfl := hother.eq hroot hdata
            exact hsilent (Or.inl ⟨hraw, h.decoded_eq_nil_iff.mpr htext⟩)
          · intro other decoded' hother h' hopus hnil
            obtain rfl := hother.eq hroot hdata
            exact hsilent (Or.inr ⟨hopus, h.decoded_eq h' ▸ hnil⟩)
          · intro other decoded' hother h'
            obtain rfl := hother.eq hroot hdata
            exact hsame
        · intro hreported
          refine ⟨?_, hreported.single data decoded hstream h⟩
          rintro (⟨hraw, hnil⟩ | ⟨hopus, hnil⟩)
          · exact hreported.rawAudible data decoded hstream h hraw (h.decoded_eq_nil_iff.mp hnil)
          · exact hreported.opusAudible data decoded hstream h hopus hnil
      · have hfalse : (processMessage libs sid message).ok = false := by
          rw [hpr, ← Bool.not_eq_true]
          exact fun hok => hplay (processStreamAudio_ok hok)
        refine iff_of_true (eventLaw_refused speex native r initOk hfalse) ?_
        have hnone : ∀ data decoded, IsStreamAudio libs message data →
            ¬Playable libs data decoded := by
          rintro data decoded ⟨root', hroot', -, hdata⟩ h
          obtain rfl := Option.some.inj (hroot.symm.trans hroot')
          exact hplay ⟨data, decoded, hdata, h⟩
        exact .of_not_playable hnotRaw hnone

end

/-- Libraries that know one message, print one text and decode no Opus. -/
def MessageLibs.single (message : CString) (root : CJson) (printed : CString) : MessageLibs where
  parse s := if s = [] then none else if s = message.bytes then some root else none
  parse_nil := rfl
  print _ := some printed
  opusDecode _ := []

theorem single_parse {message : CString} (h : message.bytes ≠ []) (root : CJson)
    (printed : CString) :
    (MessageLibs.single message root printed).parse message.bytes = some root := by
  show (if message.bytes = [] then none
    else if message.bytes = message.bytes then some root else none) = some root
  rw [if_neg h, if_pos rfl]

/-- `{"type":"rawAudio","data":{"sampleRate":8000}}` fires an event without a body. -/
theorem raw_audio_body_lost : ¬∀ (speex : Speex Unit) (native : NativeRate) (libs : MessageLibs)
    (message : CString), EventLaw libs (ascii "uuid") message
      (StreamerAudio.messageCallback speex native libs (ascii "uuid") ⟨false, 8000, none⟩ true true
        message).2 := by
  intro hall
  let text : List UInt8 :=
    ascii "\x7b\"type\":\"rawAudio\",\"data\":\x7b\"sampleRate\":8000\x7d\x7d"
  let root : CJson := .object [(ascii "type", .string (ascii "rawAudio")),
    (ascii "data", .object [(ascii "sampleRate", .number 8000 (ascii "8000"))])]
  let libs : MessageLibs :=
    ⟨fun s => if s = text then some root else none, by decide, fun _ => none, fun _ => []⟩
  let message : CString := ⟨text, by decide⟩
  have hroot : libs.parse message.bytes = some root := by
    change (if text = text then some root else none) = some root
    rw [if_pos rfl]
  have htype : root.getObjectCstr (ascii "type") = some (ascii "rawAudio") := by decide
  have hpr : processMessage libs (ascii "uuid") message = processRawAudio root := by
    rcases processMessage_cases libs (ascii "uuid") message with ⟨-, hother⟩ | ⟨root', hr, hkind⟩
    · exact absurd htype (hother root hroot).1
    · obtain rfl := Option.some.inj (hroot.symm.trans hr)
      rcases hkind with ⟨-, hpr⟩ | ⟨hstream, -⟩
      · exact hpr
      · rw [htype] at hstream
        exact absurd hstream (by decide)
  exact not_eventLaw_rawAudio ⟨fun _ _ => (), fun _ _ _ => ([], ()), id⟩
    ⟨8000, by decide, by decide⟩ ⟨false, 8000, none⟩ true hroot htype hpr (hall _ _ libs message)

end ModAudioStream
