import ModAudioStream.StartCommand
import ModAudioStream.MetadataFirst

namespace ModAudioStream

/-- `initialMetadata` of a `private_t` that was zeroed first. -/
def initialMetadataOf (metadata : Option CString) : List UInt8 :=
  match metadata with
  | none => List.replicate maxMetadataLen 0
  | some metadata => strncpy metadata maxMetadataLen

/-- What `send_initial_metadata` gives to `writeText`, where `beyond` is what memory holds behind
the array. -/
def sendInitialMetadata (initialMetadata beyond : List UInt8) : Option (List UInt8) :=
  let text := stringAt initialMetadata beyond
  if 0 < text.length then some text else none

/-- The text that is to be sent for the metadata of a command. -/
def metadataText (metadata : Option CString) : Option (List UInt8) :=
  (metadata.map CString.bytes).filter (0 < ·.length)

/-- The client is given the URI itself, `initialMetadata` is terminated, and what is sent of it is
the metadata. -/
structure StoredWhole (url : CString) (metadata : Option CString) (request : StartRequest) :
    Prop where
  uri : ∀ beyond, stringAt request.wsUri beyond = url.bytes
  terminated : 0 ∈ initialMetadataOf request.metadata
  text : ∀ beyond,
    sendInitialMetadata (initialMetadataOf request.metadata) beyond = metadataText metadata

/-- The URI leaves room for a NUL in `wsUri`, and the metadata in `initialMetadata`. -/
structure FitArrays (url : CString) (metadata : Option CString) : Prop where
  uri : url.bytes.length < maxWsUri
  metadata : ∀ text ∈ metadata, text.bytes.length < maxMetadataLen

theorem stringAt_wsUri_iff {url : CString} {wsUri : List UInt8}
    (h : validateWsUri url = some wsUri) :
    (∀ beyond, stringAt wsUri beyond = url.bytes) ↔ url.bytes.length < maxWsUri := by
  obtain ⟨-, rfl⟩ := (WsUri.validateWsUri_iff url wsUri).mp h
  simp only [stringAt_terminated, List.take_eq_self_iff, forall_const]
  unfold maxWsUri
  omega

theorem nul_mem_strncpy_iff (src : CString) (n : Nat) :
    0 ∈ strncpy src n ↔ src.bytes.length < n := by
  have hcopied : 0 ∉ src.bytes.take n := fun hmem => src.noNul (List.mem_of_mem_take hmem)
  rw [strncpy, List.mem_append, or_iff_right hcopied, List.mem_replicate, and_iff_left rfl]
  omega

theorem sendInitialMetadata_strncpy {metadata : CString}
    (h : metadata.bytes.length < maxMetadataLen) (beyond : List UInt8) :
    sendInitialMetadata (strncpy metadata maxMetadataLen) beyond =
      metadataText (some metadata) := by
  rw [sendInitialMetadata, stringAt_strncpy h, metadataText, Option.map_some]
  by_cases hpos : 0 < metadata.bytes.length
  · rw [if_pos hpos, Option.filter_some_pos (by simpa using hpos)]
  · rw [if_neg hpos, Option.filter_some_neg (by simpa using hpos)]

/-- Without metadata the array holds nothing but NULs. -/
theorem initialMetadataOf_none :
    initialMetadataOf none = strncpy ⟨[], List.not_mem_nil⟩ maxMetadataLen := rfl

theorem metadata_whole_iff (metadata : Option CString) :
    (0 ∈ initialMetadataOf metadata ∧
      ∀ beyond, sendInitialMetadata (initialMetadataOf metadata) beyond =
        metadataText metadata) ↔
      ∀ text ∈ metadata, text.bytes.length < maxMetadataLen := by
  cases metadata with
  | none =>
    have hlen : ([] : List UInt8).length < maxMetadataLen := by decide
    refine iff_of_true ⟨?_, fun beyond => ?_⟩ nofun
    · rw [initialMetadataOf_none, nul_mem_strncpy_iff]
      exact hlen
    · rw [initialMetadataOf_none]
      exact sendInitialMetadata_strncpy hlen beyond
  | some text =>
    rw [initialMetadataOf, nul_mem_strncpy_iff]
    constructor
    · rintro ⟨hlen, -⟩ text' htext
      cases htext
      exact hlen
    · intro h
      have hlen := h text rfl
      exact ⟨hlen, sendInitialMetadata_strncpy hlen⟩

theorem storedWhole_iff {url : CString} {metadata : Option CString} {request : StartRequest}
    (huri : validateWsUri url = some request.wsUri) (hmetadata : request.metadata = metadata) :
    StoredWhole url metadata request ↔ FitArrays url metadata := by
  subst hmetadata
  constructor
  · intro h
    exact ⟨(stringAt_wsUri_iff huri).mp h.uri,
      (metadata_whole_iff request.metadata).mp ⟨h.terminated, h.text⟩⟩
  · intro h
    obtain ⟨hnul, htext⟩ := (metadata_whole_iff request.metadata).mpr h.metadata
    exact ⟨(stringAt_wsUri_iff huri).mpr h.uri, hnul, htext⟩

/-- A start command that succeeds has stored its arguments whole if and only if they fit. -/
theorem start_arguments_whole_iff (calls : CommandCalls) (cmd url : CString)
    (request : StartRequest) (hurl : (argvOf calls cmd)[2]? = some url)
    (hsuccess : .performed (.startCapture request) true ∈ (streamFunction calls cmd).effects) :
    StoredWhole url (argvOf calls cmd)[5]? request ↔ FitArrays url (argvOf calls cmd)[5]? := by
  have hstarted := (request_iff calls cmd request).mp
    (List.mem_filterMap.mpr ⟨_, hsuccess, rfl⟩)
  obtain ⟨url', hmem, huri⟩ := hstarted.uri
  cases hurl.symm.trans hmem
  exact storedWhole_iff huri hstarted.metadata

/-- Short arguments are stored whole. -/
theorem short_arguments_whole : ∃ (calls : CommandCalls) (cmd url metadata : CString)
    (request : StartRequest), (argvOf calls cmd)[5]? = some metadata ∧
      .performed (.startCapture request) true ∈ (streamFunction calls cmd).effects ∧
      StoredWhole url (argvOf calls cmd)[5]? request := by
  let url : CString := ⟨ascii "ws://host", by decide⟩
  let metadata : CString := ⟨ascii "meta", by decide⟩
  let rest : List CString := [⟨ascii "8k", by decide⟩, metadata]
  let cmd : CString := ⟨ascii "uuid start ws://host mono 8k meta", by decide⟩
  have hvalid : ∀ text ∈ rest[1]?, validText text = true := by
    intro text htext
    cases htext
    decide
  have h := performed_of_request (@monoStart_request cmd url rest _ (by decide)
    (validateWsUri_host (List.append_nil _).symm nofun) (by decide) hvalid)
  refine ⟨_, cmd, url, metadata, _, rfl, h, ?_⟩
  rw [start_arguments_whole_iff _ cmd url _ rfl h]
  refine ⟨by decide, ?_⟩
  intro text htext
  cases htext
  decide

/-- A URI of 4096 bytes is accepted, and the client is given one of 4095. -/
theorem long_uri_cut : ¬∀ (calls : CommandCalls) (cmd url : CString) (request : StartRequest),
    (argvOf calls cmd)[2]? = some url →
    .performed (.startCapture request) true ∈ (streamFunction calls cmd).effects →
      StoredWhole url (argvOf calls cmd)[5]? request := by
  intro hall
  let path : List UInt8 := 0x2F :: List.replicate 4086 0x78
  have hnul : 0 ∉ ascii "ws://host" ++ path := by
    rw [List.mem_append, List.mem_cons, List.mem_replicate]
    rintro (h | h | ⟨-, h⟩)
    · exact absurd h (by decide)
    · cases h
    · cases h
  let url : CString := ⟨ascii "ws://host" ++ path, hnul⟩
  let cmd : CString := ⟨ascii "uuid start " ++ url.bytes ++ ascii " mono", by
    rw [List.mem_append, List.mem_append]
    rintro ((h | h) | h)
    · exact absurd h (by decide)
    · exact hnul h
    · exact absurd h (by decide)⟩
  have hcmd : cmd.bytes ≠ [] := List.cons_ne_nil _ _
  have huri : validateWsUri url = some (strncpy url (maxWsUri - 1) ++ [0]) :=
    validateWsUri_host rfl (by rintro c ⟨⟩; rfl)
  have hargv : (argvOf (.granting (monoStart url [])) cmd)[2]? = some url := rfl
  have h := hall _ cmd url _ hargv
    (performed_of_request (@monoStart_request cmd url [] _ hcmd huri (by decide) nofun))
  have hfits := (stringAt_wsUri_iff huri).mp h.uri
  have hlen : url.bytes.length = maxWsUri := by
    change (ascii "ws://host" ++ path).length = _
    rw [List.length_append, List.length_cons, List.length_replicate]
    rfl
  omega

end ModAudioStream
