import ModAudioStream.WsUri
import ModAudioStream.Utf8Text

namespace ModAudioStream

/-- `is_valid_utf8` of an argument, which ends in a NUL. -/
def validText (text : CString) : Bool := isValidUtf8 (text.bytes ++ [0]) == some true

/-- `strcasecmp` with a literal finds no difference. -/
def sameWord (word : CString) (s : String) : Bool := word.bytes.map toLower == ascii s

/-- What `stream_function` hands to `start_capture`. `writeStream` and `stereo` are the flags
`SMBF_WRITE_STREAM` and `SMBF_STEREO`, `wsUri` is the array that `validate_ws_uri` has written. -/
structure StartRequest where
  writeStream : Bool
  stereo : Bool
  wsUri : List UInt8
  sampling : Int
  metadata : Option CString

/-- `channels` in `start_capture`. -/
def StartRequest.channels (request : StartRequest) : Nat := if request.stereo then 2 else 1

/-- `do_stop`, `do_pauseresume`, `do_break`, `send_text` and `start_capture`. -/
inductive Operation where
  | stop (text : Option CString)
  | pauseresume (pause : Bool)
  | breakSession
  | sendText (text : CString)
  | startCapture (request : StartRequest)

/-- What is called for a command: `switch_separate_string`, which leaves NULL behind the
arguments it finds, `switch_core_session_locate`, and the operations, which return
`SWITCH_STATUS_SUCCESS` or not. -/
structure CommandCalls where
  separate : CString → List CString
  locate : CString → Bool
  perform : Operation → Bool

inductive Reply where
  | usage
  | ok
  | err
deriving DecidableEq, Repr

def streamApiSyntax : List UInt8 :=
  ascii "<uuid> [start | stop | send_text | pause | resume | break ] " ++
    ascii "[wss-url | path] [mono | mixed | stereo] [8000 | 16000] [metadata]"

def Reply.text : Reply → List UInt8
  | .usage => ascii "-USAGE: " ++ streamApiSyntax ++ ascii "\n"
  | .ok => ascii "+OK Success\n"
  | .err => ascii "-ERR Operation Failed\n"

inductive CommandEffect where
  | logged (text : List UInt8)
  | located (found : Bool)
  | performed (op : Operation) (success : Bool)
  | rwunlocked
  | replied (reply : Reply)

/-- How a sub-command is left: by `goto done`, by falling through to the unlock with `status`, or
through a NULL pointer. -/
inductive Leave where
  | gotoDone
  | fallThrough (status : Bool)
  | crash

def Leave.falls : Leave → Bool
  | .fallThrough _ => true
  | .gotoDone | .crash => false

/-- What a command does, and whether it ends in a crash. -/
structure CommandRun where
  effects : List CommandEffect
  crashed : Bool

/-- The flags of a mix type. -/
def mixFlags (mixType : CString) : Option (Bool × Bool) :=
  if mixType.bytes = ascii "mixed" then some (true, false)
  else if mixType.bytes = ascii "stereo" then some (true, true)
  else if mixType.bytes = ascii "mono" then some (false, false)
  else none

/-- `sampling`, by the argument when there is one. -/
def samplingOf : Option CString → Int
  | none => 8000
  | some arg =>
    if arg.bytes = ascii "16k" then 16000
    else if arg.bytes = ascii "8k" then 8000
    else atoi arg.bytes

/-- `%s` of an element of `argv`. -/
def shown (argument : Option CString) : List UInt8 :=
  (argument.map CString.bytes).getD (ascii "(null)")

section

variable (calls : CommandCalls)

/-- A log line, the unlock and `goto done`. -/
def refuse (text : List UInt8) : List CommandEffect × Leave :=
  ([.logged text, .rwunlocked], .gotoDone)

def perform (op : Operation) : List CommandEffect × Leave :=
  ([.performed op (calls.perform op)], .fallThrough (calls.perform op))

def invalidUtf8 (text : CString) : List UInt8 :=
  text.bytes ++ ascii " contains invalid utf8 characters\n"

def stopCommand (argv : List CString) : List CommandEffect × Leave :=
  match argv[2]? with
  | some text =>
    if !validText text then refuse (invalidUtf8 text) else perform calls (.stop (some text))
  | none => perform calls (.stop none)

def sendTextCommand (argv : List CString) : List CommandEffect × Leave :=
  match argv[2]? with
  | some text =>
    if !validText text then refuse (invalidUtf8 text) else perform calls (.sendText text)
  | none => refuse (ascii "send_text requires an argument specifying text to send\n")

/-- `start` once the flags are set. -/
def startMixed (argv : List CString) (flags : Bool × Bool) : List CommandEffect × Leave :=
  let sampling := samplingOf argv[4]?
  match argv[2]? with
  | none => ([], .crash)
  | some url =>
    match validateWsUri url with
    | none => ([.logged (ascii "invalid websocket uri: " ++ url.bytes ++ ascii "\n")],
        .fallThrough false)
    | some wsUri =>
      if sampling.tmod 8000 ≠ 0 then
        ([.logged (ascii "invalid sample rate: " ++ shown argv[4]? ++ ascii "\n")],
          .fallThrough false)
      else perform calls (.startCapture ⟨flags.1, flags.2, wsUri, sampling, argv[5]?⟩)

def startCommand (argv : List CString) : List CommandEffect × Leave :=
  match argv[5]?.filter (!validText ·) with
  | some metadata => refuse (invalidUtf8 metadata)
  | none =>
    match argv[3]? with
    | none => ([], .crash)
    | some mixType =>
      match mixFlags mixType with
      | none => refuse (ascii "invalid mix type: " ++ mixType.bytes ++
          ascii ", must be mono, mixed, or stereo\n")
      | some flags => startMixed calls argv flags

/-- What is done while the session is locked. -/
def subCommand (argv : List CString) (command : CString) : List CommandEffect × Leave :=
  if sameWord command "stop" then stopCommand calls argv
  else if sameWord command "pause" then perform calls (.pauseresume true)
  else if sameWord command "resume" then perform calls (.pauseresume false)
  else if sameWord command "break" then perform calls .breakSession
  else if sameWord command "send_text" then sendTextCommand calls argv
  else if sameWord command "start" then startCommand calls argv
  else ([.logged (ascii "unsupported mod_audio_stream cmd: " ++ command.bytes ++ ascii "\n")],
    .fallThrough false)

def argvOf (cmd : CString) : List CString :=
  if cmd.bytes.isEmpty then [] else calls.separate cmd

def usageEffects (cmd : CString) (argv : List CString) : List CommandEffect :=
  [.logged (ascii "Error with command " ++ cmd.bytes ++ ascii " " ++ shown argv[0]? ++ ascii " " ++
    shown argv[1]? ++ ascii ".\n"), .replied .usage]

/-- The branch of `stream_function` that looks for the session. -/
def onSession (argv : List CString) (uuid command : CString) : CommandRun :=
  if calls.locate uuid then
    match subCommand calls argv command with
    | (effects, .gotoDone) => ⟨.located true :: effects, false⟩
    | (effects, .crash) => ⟨.located true :: effects, true⟩
    | (effects, .fallThrough status) =>
      ⟨.located true :: effects ++ [.rwunlocked, .replied (if status then .ok else .err)], false⟩
  else
    ⟨[.located false,
      .logged (ascii "Error locating session " ++ uuid.bytes ++ ascii "\n"), .replied .err], false⟩

/-- The number of arguments of `start` is checked with `strcmp`, the sub-command is found with
`strcasecmp`. -/
def dispatch (cmd : CString) : List CString → CommandRun
  | uuid :: command :: args =>
    if command.bytes = ascii "start" ∧ (uuid :: command :: args).length < 4 then
      ⟨usageEffects cmd (uuid :: command :: args), false⟩
    else onSession calls (uuid :: command :: args) uuid command
  | argv => ⟨usageEffects cmd argv, false⟩

def streamFunction (cmd : CString) : CommandRun :=
  let run := dispatch calls cmd (argvOf calls cmd)
  { run with
    effects := .logged (ascii "mod_audio_stream cmd: " ++ cmd.bytes ++ ascii "\n") :: run.effects }

end

namespace CommandEffect

def reply : CommandEffect → Option Reply
  | replied reply => some reply
  | _ => none

def result : CommandEffect → Option (Operation × Bool)
  | performed op success => some (op, success)
  | _ => none

/-- Whether the session is found, and `none` for the unlock. -/
def lock : CommandEffect → Option (Option Bool)
  | located found => some (some found)
  | rwunlocked => some none
  | _ => none

end CommandEffect

/-- There is one reply, `+OK` is that of an operation that has succeeded, and the session is
unlocked once where it has been found. -/
structure Balanced (run : CommandRun) : Prop where
  returned : run.crashed = false
  answered : ∃ reply, run.effects.filterMap CommandEffect.reply = [reply] ∧
    (reply = .ok → ∃ op, run.effects.filterMap CommandEffect.result = [(op, true)])
  unlocked : run.effects.filterMap CommandEffect.lock = [] ∨
    run.effects.filterMap CommandEffect.lock = [some false] ∨
    run.effects.filterMap CommandEffect.lock = [some true, none]

/-- The arguments that a sub-command refuses without a reply, or for which it reads a NULL. -/
def Refused (argv : List CString) (command : CString) : Prop :=
  (sameWord command "stop" = true ∧ ∃ text ∈ argv[2]?, validText text = false) ∨
  (sameWord command "send_text" = true ∧ ∀ text ∈ argv[2]?, validText text = false) ∨
  (sameWord command "start" = true ∧
    ((∃ metadata ∈ argv[5]?, validText metadata = false) ∨
      ∀ mixType ∈ argv[3]?, mixFlags mixType = none))

/-- A command for a session that is found, past the check on the number of its arguments, whose
sub-command refuses them. -/
def Unanswered (calls : CommandCalls) (cmd : CString) : Prop :=
  ∃ uuid command args, argvOf calls cmd = uuid :: command :: args ∧
    ¬(command.bytes = ascii "start" ∧ (uuid :: command :: args).length < 4) ∧
      calls.locate uuid = true ∧ Refused (uuid :: command :: args) command

/-- How a sub-command can end, with what it has done. -/
inductive SubCommandEnds (calls : CommandCalls) : List CommandEffect × Leave → Prop
  | refused (text : List UInt8) : SubCommandEnds calls (refuse text)
  | failed (text : List UInt8) : SubCommandEnds calls ([.logged text], .fallThrough false)
  | performed (op : Operation) : SubCommandEnds calls (perform calls op)
  | crashed : SubCommandEnds calls ([], .crash)

section

variable {calls : CommandCalls} {argv : List CString} {command : CString}

theorem startMixed_ends (flags : Bool × Bool) :
    SubCommandEnds calls (startMixed calls argv flags) := by
  unfold startMixed
  dsimp only
  split
  next => exact .crashed
  next =>
    split
    next => exact .failed _
    next =>
      split
      next => exact .failed _
      next => exact .performed _

theorem startCommand_ends : SubCommandEnds calls (startCommand calls argv) := by
  unfold startCommand
  split
  next => exact .refused _
  next =>
    split
    next => exact .crashed
    next =>
      split
      next => exact .refused _
      next flags _ => exact startMixed_ends flags

theorem subCommand_ends : SubCommandEnds calls (subCommand calls argv command) := by
  unfold subCommand
  split
  next =>
    unfold stopCommand
    split
    next =>
      split
      next => exact .refused _
      next => exact .performed _
    next => exact .performed _
  next =>
    split
    next => exact .performed _
    next =>
      split
      next => exact .performed _
      next =>
        split
        next => exact .performed _
        next =>
          split
          next =>
            unfold sendTextCommand
            split
            next =>
              split
              next => exact .refused _
              next => exact .performed _
            next => exact .refused _
          next =>
            split
            next => exact startCommand_ends
            next => exact .failed _

theorem stopCommand_falls : (stopCommand calls argv).2.falls = true ↔
    ¬∃ text ∈ argv[2]?, validText text = false := by
  unfold stopCommand
  cases argv[2]? with
  | none => simp [perform, Leave.falls]
  | some text =>
    cases hvalid : validText text with
    | false => simp [refuse, Leave.falls, hvalid]
    | true => simp [perform, Leave.falls, hvalid]

theorem sendTextCommand_falls : (sendTextCommand calls argv).2.falls = true ↔
    ¬∀ text ∈ argv[2]?, validText text = false := by
  unfold sendTextCommand
  cases argv[2]? with
  | none => simp [refuse, Leave.falls]
  | some text =>
    cases hvalid : validText text with
    | false => simp [refuse, Leave.falls, hvalid]
    | true => simp [perform, Leave.falls, hvalid]

theorem startMixed_falls (flags : Bool × Bool) (hargc : 3 < argv.length) :
    (startMixed calls argv flags).2.falls = true := by
  have hurl : argv[2]? = some argv[2] := List.getElem?_eq_getElem (by omega)
  unfold startMixed
  rw [hurl]
  dsimp only
  split
  next => rfl
  next =>
    split
    next => rfl
    next => rfl

theorem startCommand_falls : (startCommand calls argv).2.falls = true ↔
    ¬((∃ metadata ∈ argv[5]?, validText metadata = false) ∨
      ∀ mixType ∈ argv[3]?, mixFlags mixType = none) := by
  unfold startCommand
  cases hmetadata : argv[5]?.filter (!validText ·) with
  | some metadata =>
    obtain ⟨hmem, hvalid⟩ := Option.filter_eq_some_iff.mp hmetadata
    have hrefused : ∃ metadata ∈ argv[5]?, validText metadata = false :=
      ⟨metadata, hmem, by simpa using hvalid⟩
    exact iff_of_false Bool.false_ne_true fun hnot => hnot (Or.inl hrefused)
  | none =>
    have hvalid : ¬∃ metadata ∈ argv[5]?, validText metadata = false := by
      rintro ⟨metadata, hmem, hfalse⟩
      have hnot := Option.filter_eq_none_iff.mp hmetadata metadata hmem
      simp [hfalse] at hnot
    rw [or_iff_right hvalid]
    cases hmix : argv[3]? with
    | none => simp [Leave.falls]
    | some mixType =>
      have hargc : 3 < argv.length := (List.getElem?_eq_some_iff.mp hmix).1
      cases hflags : mixFlags mixType with
      | none => simp [refuse, Leave.falls, hflags]
      | some flags => simp [startMixed_falls flags hargc, hflags]

theorem sameWord_unique {word : CString} {a b : String} (ha : sameWord word a = true)
    (hne : ascii a ≠ ascii b) : sameWord word b = false := by
  rw [sameWord, beq_iff_eq] at ha
  rw [sameWord, beq_eq_false_iff_ne, ha]
  exact hne

/-- A sub-command goes on to the reply unless it refuses its arguments. -/
theorem subCommand_falls :
    (subCommand calls argv command).2.falls = true ↔ ¬Refused argv command := by
  unfold subCommand Refused
  split
  next hstop =>
    have hsend := sameWord_unique hstop (b := "send_text") (by decide)
    have hstart := sameWord_unique hstop (b := "start") (by decide)
    rw [stopCommand_falls]
    simp [hstop, hsend, hstart]
  next hstop =>
    split
    next hpause =>
      have hsend := sameWord_unique hpause (b := "send_text") (by decide)
      have hstart := sameWord_unique hpause (b := "start") (by decide)
      simp [hstop, hsend, hstart, perform, Leave.falls]
    next =>
      split
      next hresume =>
        have hsend := sameWord_unique hresume (b := "send_text") (by decide)
        have hstart := sameWord_unique hresume (b := "start") (by decide)
        simp [hstop, hsend, hstart, perform, Leave.falls]
      next =>
        split
        next hbreak =>
          have hsend := sameWord_unique hbreak (b := "send_text") (by decide)
          have hstart := sameWord_unique hbreak (b := "start") (by decide)
          simp [hstop, hsend, hstart, perform, Leave.falls]
        next =>
          split
          next hsend =>
            have hstart := sameWord_unique hsend (b := "start") (by decide)
            rw [sendTextCommand_falls]
            simp [hstop, hsend, hstart]
          next hsend =>
            split
            next hstart =>
              rw [startCommand_falls]
              simp [hstop, hsend, hstart]
            next hstart => simp [hstop, hsend, hstart, Leave.falls]

theorem balanced_logged {text : List UInt8} {effects : List CommandEffect} {crashed : Bool} :
    Balanced ⟨.logged text :: effects, crashed⟩ ↔ Balanced ⟨effects, crashed⟩ :=
  ⟨fun h => ⟨h.returned, h.answered, h.unlocked⟩, fun h => ⟨h.returned, h.answered, h.unlocked⟩⟩

theorem balanced_usage (cmd : CString) (argv : List CString) :
    Balanced ⟨usageEffects cmd argv, false⟩ :=
  ⟨rfl, ⟨.usage, rfl, nofun⟩, Or.inl rfl⟩

theorem balanced_lost (calls : CommandCalls) (argv : List CString) {uuid : CString}
    (command : CString) (h : calls.locate uuid = false) :
    Balanced (onSession calls argv uuid command) := by
  have hnot : ¬calls.locate uuid = true := by simp [h]
  rw [onSession, if_neg hnot]
  exact ⟨rfl, ⟨.err, rfl, nofun⟩, Or.inr (Or.inl rfl)⟩

/-- With the session found, what is done is balanced exactly when the sub-command falls through to
the reply. -/
theorem balanced_onSession_iff {uuid : CString} (h : calls.locate uuid = true) :
    Balanced (onSession calls argv uuid command) ↔
      (subCommand calls argv command).2.falls = true := by
  have hends := @subCommand_ends calls argv command
  rw [onSession, if_pos h]
  generalize subCommand calls argv command = out at hends
  cases hends with
  | refused text =>
    refine iff_of_false ?_ Bool.false_ne_true
    rintro ⟨-, ⟨reply, hreply, -⟩, -⟩
    cases hreply
  | failed text => exact iff_of_true ⟨rfl, ⟨.err, rfl, nofun⟩, Or.inr (Or.inr rfl)⟩ rfl
  | performed op =>
    refine iff_of_true ⟨rfl, ?_, Or.inr (Or.inr rfl)⟩ rfl
    simp only [perform]
    cases calls.perform op with
    | false => exact ⟨.err, rfl, nofun⟩
    | true => exact ⟨.ok, rfl, fun _ => ⟨op, rfl⟩⟩
  | crashed =>
    refine iff_of_false ?_ Bool.false_ne_true
    rintro ⟨hreturned, -, -⟩
    cases hreturned

/-- Every command is answered once, and its session unlocked once, if and only if its sub-command
does not refuse its arguments. -/
theorem command_balanced_iff (calls : CommandCalls) (cmd : CString) :
    Balanced (streamFunction calls cmd) ↔ ¬Unanswered calls cmd := by
  rw [streamFunction, balanced_logged, Unanswered]
  match argvOf calls cmd with
  | [] =>
    refine iff_of_true (balanced_usage cmd []) ?_
    rintro ⟨uuid, command, args, heq, -⟩
    cases heq
  | [uuid] =>
    refine iff_of_true (balanced_usage cmd [uuid]) ?_
    rintro ⟨uuid', command, args, heq, -⟩
    cases heq
  | uuid :: command :: args =>
    rw [dispatch]
    split
    next husage =>
      refine iff_of_true (balanced_usage cmd _) ?_
      rintro ⟨uuid', command', args', heq, hargs, -⟩
      cases heq
      exact hargs husage
    next husage =>
      cases hfound : calls.locate uuid with
      | false =>
        refine iff_of_true (balanced_lost calls _ command hfound) ?_
        rintro ⟨uuid', command', args', heq, -, hlocate, -⟩
        cases heq
        rw [hfound] at hlocate
        cases hlocate
      | true =>
        rw [balanced_onSession_iff hfound, subCommand_falls]
        constructor
        · rintro h ⟨uuid', command', args', heq, -, -, hrefused⟩
          cases heq
          exact h hrefused
        · intro h hrefused
          exact h ⟨uuid, command, args, rfl, husage, hfound, hrefused⟩

/-- `send_text` without a text gets no reply. -/
theorem send_text_unanswered : ¬∀ (calls : CommandCalls) (cmd : CString),
    Balanced (streamFunction calls cmd) := by
  intro hall
  let uuid : CString := ⟨ascii "uuid", by decide⟩
  let command : CString := ⟨ascii "send_text", by decide⟩
  have h := hall ⟨fun _ => [uuid, command], fun _ => true, fun _ => true⟩
    ⟨ascii "uuid send_text", by decide⟩
  obtain ⟨reply, hreply, -⟩ := h.answered
  have hnone : (streamFunction ⟨fun _ => [uuid, command], fun _ => true, fun _ => true⟩
      ⟨ascii "uuid send_text", by decide⟩).effects.filterMap CommandEffect.reply = [] := by
    decide
  rw [hnone] at hreply
  cases hreply

end

end ModAudioStream
