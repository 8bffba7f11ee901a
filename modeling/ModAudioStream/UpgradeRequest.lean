import ModAudioStream.Base64Text
import ModAudioStream.CJson
import ModAudioStream.HttpHead
import ModAudioStream.UrlParsers
import Mathlib.Data.List.Sort

namespace ModAudioStream

/-- `hdrs[name] = value` on a `std::map`, in the order in which it iterates. -/
def putHeader (hdrs : List (List UInt8 × List UInt8)) (f : List UInt8 × List UInt8) :
    List (List UInt8 × List UInt8) :=
  (hdrs.filter (·.1 ≠ f.1)).orderedInsert (fun a b => a.1 ≤ b.1) f

/-- The loop of the `AudioStreamer` constructor over the children of the parsed headers. It
throws when it makes a string of the name of an array item, a null pointer. -/
def collectHeaders : List (Option (List UInt8) × CJson) → List (List UInt8 × List UInt8) →
    Option (List (List UInt8 × List UInt8))
  | [], hdrs => some hdrs
  | item :: rest, hdrs =>
    match item.2.asString with
    | some value => item.1.bind fun name => collectHeaders rest (putHeader hdrs (name, value))
    | none => collectHeaders rest hdrs

/-- The headers that the constructor sets; `parse` is `cJSON_Parse`. -/
def streamerHeaders (parse : List UInt8 → Option CJson) (extraHeaders : Option (List UInt8)) :
    Option (List (List UInt8 × List UInt8)) :=
  match extraHeaders.bind parse with
  | some json => collectHeaders json.child []
  | none => some []

/-- The port that follows the host, unless it is the default one. -/
def hostPort (client : UrlFields) : List UInt8 :=
  if (client.useTls = true ∧ client.port ≠ 443) ∨ (client.useTls = false ∧ client.port ≠ 80) then
    ascii ":" ++ ascii (toString client.port)
  else []

/-- The request that `doHandshake` sends. -/
def upgradeRequest (client : UrlFields) (wsKey : List UInt8)
    (extraHeaders : List (List UInt8 × List UInt8)) : List UInt8 :=
  ascii "GET " ++ client.path ++ ascii " HTTP/1.1\r\n" ++
  ascii "Host: " ++ client.host ++ hostPort client ++ ascii "\r\n" ++
  ascii "Upgrade: websocket\r\n" ++
  ascii "Connection: Upgrade\r\n" ++
  ascii "Sec-WebSocket-Key: " ++ wsKey ++ ascii "\r\n" ++
  ascii "Sec-WebSocket-Version: 13\r\n" ++
  (extraHeaders.map fun h => h.1 ++ ascii ": " ++ h.2 ++ ascii "\r\n").flatten ++
  ascii "\r\n"

/-- The fields that every request has. -/
def fixedFields (client : UrlFields) (wsKey : List UInt8) : List (List UInt8 × List UInt8) :=
  [(ascii "Host", client.host ++ hostPort client), (ascii "Upgrade", ascii "websocket"),
    (ascii "Connection", ascii "Upgrade"), (ascii "Sec-WebSocket-Key", wsKey),
    (ascii "Sec-WebSocket-Version", ascii "13")]

def reservedNames : List (List UInt8) :=
  [ascii "Host", ascii "Upgrade", ascii "Connection", ascii "Sec-WebSocket-Key",
    ascii "Sec-WebSocket-Version"]

def isReserved (name : List UInt8) : Bool := reservedNames.any fun r => sameName r name

/-- The request reads back with the client's path and key, each reserved field once, and
besides these exactly the members of the headers. -/
def Unambiguous (client : UrlFields) (wsKey : List UInt8)
    (members : List (List UInt8 × List UInt8)) (request : List UInt8) : Prop :=
  ∃ head, readRequestHead request = some (head, []) ∧ head.method = ascii "GET" ∧
    head.target = client.path ∧
    (∀ name ∈ reservedNames, (head.fields.filter fun f => sameName name f.1).length = 1) ∧
    (ascii "Sec-WebSocket-Key", wsKey) ∈ head.fields ∧
    (head.fields.filter fun f => !isReserved f.1).Perm members

theorem upgradeRequest_eq (client : UrlFields) (wsKey : List UInt8)
    (hdrs : List (List UInt8 × List UInt8)) :
    upgradeRequest client wsKey hdrs = requestLine (ascii "GET") client.path ++ (crlf ++
      (joinLines ((fixedFields client wsKey ++ hdrs).map fieldLine) ++ (crlf ++ []))) := by
  have hfields : (hdrs.map fun h => h.1 ++ ascii ": " ++ h.2 ++ ascii "\r\n").flatten =
      joinLines (hdrs.map fieldLine) := by
    rw [joinLines, List.map_map]
    congr 1
    refine List.map_congr_left fun h _ => ?_
    simp [fieldLine, ascii, crlf]
  unfold upgradeRequest
  rw [hfields, List.map_append, joinLines_append]
  simp [fixedFields, fieldLine, requestLine, httpVersion, ascii, crlf]

theorem mem_putHeader {hdrs : List (List UInt8 × List UInt8)} {f g : List UInt8 × List UInt8}
    (h : g ∈ putHeader hdrs f) : g = f ∨ g ∈ hdrs := by
  rcases (List.mem_orderedInsert _).mp h with rfl | h
  · exact Or.inl rfl
  · exact Or.inr (List.mem_of_mem_filter h)

theorem nodup_putHeader {hdrs : List (List UInt8 × List UInt8)} (f : List UInt8 × List UInt8)
    (h : (hdrs.map (·.1)).Nodup) : ((putHeader hdrs f).map (·.1)).Nodup := by
  have hperm := (List.perm_orderedInsert (fun a b => a.1 ≤ b.1) f (hdrs.filter (·.1 ≠ f.1))).map
    (·.1)
  refine hperm.nodup_iff.mpr ?_
  rw [List.map_cons, List.nodup_cons]
  constructor
  · intro hmem
    obtain ⟨g, hg, hname⟩ := List.mem_map.mp hmem
    have hne := (List.mem_filter.mp hg).2
    exact absurd hname (by simpa using hne)
  · exact h.sublist (List.filter_sublist.map _)

theorem putHeader_perm {hdrs : List (List UInt8 × List UInt8)} {f : List UInt8 × List UInt8}
    (h : f.1 ∉ hdrs.map (·.1)) : (putHeader hdrs f).Perm (f :: hdrs) := by
  have hkeep : hdrs.filter (·.1 ≠ f.1) = hdrs := by
    refine List.filter_eq_self.mpr fun g hg => ?_
    have hne : g.1 ≠ f.1 := fun heq => h (List.mem_map.mpr ⟨g, hg, heq⟩)
    simpa using hne
  unfold putHeader
  rw [hkeep]
  exact List.perm_orderedInsert _ _ _

section Members

variable {members hdrs : List (List UInt8 × List UInt8)}

theorem mem_putHeaders {g : List UInt8 × List UInt8} (h : g ∈ members.foldl putHeader hdrs) :
    g ∈ members ∨ g ∈ hdrs := by
  induction members generalizing hdrs with
  | nil => exact Or.inr h
  | cons m members ih =>
    rcases ih h with hmem | hmem
    · exact Or.inl (List.mem_cons_of_mem m hmem)
    · rcases mem_putHeader hmem with rfl | hmem
      · exact Or.inl List.mem_cons_self
      · exact Or.inr hmem

theorem nodup_putHeaders (h : (hdrs.map (·.1)).Nodup) :
    ((members.foldl putHeader hdrs).map (·.1)).Nodup := by
  induction members generalizing hdrs with
  | nil => exact h
  | cons m members ih => exact ih (nodup_putHeader m h)

theorem putHeaders_perm (h : ((hdrs ++ members).map (·.1)).Nodup) :
    (members.foldl putHeader hdrs).Perm (hdrs ++ members) := by
  induction members generalizing hdrs with
  | nil =>
    rw [List.append_nil]
    exact List.Perm.refl _
  | cons m members ih =>
    have hmiddle : (hdrs ++ m :: members).Perm (m :: hdrs ++ members) := List.perm_middle
    have hnodup := (hmiddle.map (·.1)).nodup_iff.mp h
    have hfresh : m.1 ∉ hdrs.map (·.1) := by
      rw [List.cons_append, List.map_cons, List.nodup_cons, List.map_append] at hnodup
      exact fun hmem => hnodup.1 (List.mem_append_left _ hmem)
    have hput := putHeader_perm hfresh
    have hput' := hput.append_right members
    have htail := ih ((hput'.map (·.1)).nodup_iff.mpr hnodup)
    exact htail.trans (hput'.trans hmiddle.symm)

end Members

theorem collectHeaders_object (members : List (List UInt8 × CJson))
    (hdrs : List (List UInt8 × List UInt8)) :
    collectHeaders (CJson.object members).child hdrs =
      some ((CJson.object members).stringMembers.foldl putHeader hdrs) := by
  simp only [CJson.child, CJson.stringMembers]
  induction members generalizing hdrs with
  | nil => rfl
  | cons m members ih =>
    rw [List.map_cons, collectHeaders]
    cases hm : m.2.asString with
    | none =>
      rw [List.filterMap_cons_none (by rw [hm]; rfl)]
      exact ih hdrs
    | some value =>
      rw [List.filterMap_cons_some (by rw [hm]; rfl), List.foldl_cons]
      exact ih (putHeader hdrs (m.1, value))

theorem collectHeaders_array (items : List CJson) (hdrs : List (List UInt8 × List UInt8)) :
    collectHeaders (CJson.array items).child hdrs =
      if (CJson.array items).isArrayWithString then none else some hdrs := by
  simp only [CJson.child, CJson.isArrayWithString]
  induction items with
  | nil => rfl
  | cons item items ih =>
    rw [List.map_cons, collectHeaders]
    cases hitem : item.asString with
    | none => simp [hitem, ih]
    | some value => simp [hitem]

/-- The members of the headers text, when it is JSON. -/
def headerMembers (parse : List UInt8 → Option CJson) (extraHeaders : Option (List UInt8)) :
    List (List UInt8 × List UInt8) :=
  ((extraHeaders.bind parse).map CJson.stringMembers).getD []

def headersThrow (parse : List UInt8 → Option CJson) (extraHeaders : Option (List UInt8)) : Bool :=
  (extraHeaders.bind parse).any CJson.isArrayWithString

theorem streamerHeaders_eq (parse : List UInt8 → Option CJson)
    (extraHeaders : Option (List UInt8)) : streamerHeaders parse extraHeaders =
      if headersThrow parse extraHeaders then none
      else some ((headerMembers parse extraHeaders).foldl putHeader []) := by
  unfold streamerHeaders headersThrow headerMembers
  cases extraHeaders.bind parse with
  | none => rfl
  | some json =>
    cases json with
    | object members => exact collectHeaders_object members []
    | array items => exact collectHeaders_array items []
    | null | bool | number | string => rfl

end ModAudioStream
