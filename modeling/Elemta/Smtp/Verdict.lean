import Elemta.Smtp.Envelope

/-!
# The answer to a message

The turns that answer a whole message are those that read the end of DATA and the
last chunk of BDAT. Both end in `processMessage` with the message as it was received,
and the answer is 250 exactly when that reports no error. The answer is truthful
unless the message was refused in silence.
-/

namespace Elemta.Smtp

open Bytes BufferedReader

namespace Session

/-! ## Turns that answer a message -/

def LastChunkNext (s : Session) : Prop :=
  ∃ line rest size, s.heard = some (line, rest) ∧ (splitCommand line).1 = lit "BDAT" ∧
    parseBDAT (splitCommand line).2 = .ok (size, true)

def EndsMessage (s : Session) : Prop :=
  s.state.phase = .data ∨ s.LastChunkNext

/-- What a chunk completes, if it could be read. -/
def chunkMessage (cfg : Config) (a : Answers) (s : Session) (size : Int) : Option Bytes :=
  if s.state.rcptTo = [] ∨ s.state.canAcceptDataCommand .bdat = false then none
  else
    match s.beginChunk.readBDATChunk cfg a size with
    | (t, none) => if t.live then t.bdatSpool else none
    | (_, some _) => none

def commandMessage (cfg : Config) (a : Answers) (s : Session) (line : Bytes) : Option Bytes :=
  if (Validator.validateCommand cfg.parseIP a.commandMemoryOk line).isSome ∨
      s.state.canAcceptCommand (splitCommand line).1 = false ∨ (splitCommand line).1 ≠ lit "BDAT" then
    none
  else
    match parseBDAT (splitCommand line).2 with
    | .ok (size, true) => s.chunkMessage cfg a size
    | _ => none

def received (cfg : Config) (a : Answers) (s : Session) : Option Bytes :=
  if s.live = false ∨ a.stop = true then none
  else if s.state.phase = .data then
    if a.flushes then
      match (s.readMessage cfg a).1 with
      | .ok content => some content
      | .error _ => none
    else none
  else
    match s.reader.boundedLine readerSize commandLineLimit with
    | (.text line none, r) => commandMessage cfg a { s with reader := r } line
    | _ => none

inductive Verdict (cfg : Config) (a : Answers) (s s' : Session) : Option Bytes → Prop where
  | incomplete (store : s'.store = s.store) (replies : s'.replies ≠ s.replies ++ [accepted]) :
    Verdict cfg a s s' none
  | unreadable (content : Bytes) (store : s'.store = s.store)
    (replies : s'.replies ≠ s.replies ++ [accepted]) (reads : a.headReads = false) :
    Verdict cfg a s s' (some content)
  | refused (content e : Bytes) (mode : DataTransferMode) (st : SessionState)
    (processed : processMessage cfg a.delivery
      { s.state with dataSize := content.length, dataTransferMode := mode } content s.store =
        (some e, st, s.store))
    (store : s'.store = s.store) (replies : s'.replies ≠ s.replies ++ [accepted]) :
    Verdict cfg a s s' (some content)
  | accepted (content : Bytes) (mode : DataTransferMode) (st : SessionState)
    (processed : processMessage cfg a.delivery
      { s.state with dataSize := content.length, dataTransferMode := mode } content s.store =
        (none, st, s'.store))
    (reads : a.headReads = true) (replies : s'.replies = s.replies ++ [Session.accepted]) :
    Verdict cfg a s s' (some content)

/-! ## Replies -/

/-- Errors are answered with a code of their own kind. -/
theorem errorReply_head (e : Bytes) : (errorReply e).head? ≠ some 50 := by
  intro hhead
  unfold errorReply at hhead
  split at hhead
  · rename_i hcode
    have hany := hcode.2
    rw [hhead] at hany
    simp at hany
  · cases hhead

theorem errorReply_ne_accepted (e : Bytes) : errorReply e ≠ accepted := by
  intro h
  exact errorReply_head e (by rw [h]; decide)

theorem store_finish (a : Answers) (o : Outcome) : (finish a o).store = o.1.store :=
  congrArg Core.store (core_finish a o)

theorem replies_finish_error (a : Answers) (s : Session) (e : Bytes) :
    (finish a (s, some e)).replies = s.replies ++ [errorReply e] := by
  simp only [finish]
  split
  · rfl
  · exact endTurn_keeps replies (fun _ => rfl) a _

theorem replies_finish_none (a : Answers) (s : Session) :
    (finish a (s, none)).replies = s.replies := by
  simp only [finish]
  split
  · exact endTurn_keeps replies (fun _ => rfl) a s
  · rfl

theorem append_error_ne (replies : List Bytes) (e : Bytes) :
    replies ++ [errorReply e] ≠ replies ++ [accepted] := by
  intro h
  exact errorReply_ne_accepted e (by simpa using h)

/-! ## The end of DATA -/

variable {a : Answers} {cfg : Config} {e : Bytes} {s t s' : Session}

theorem dataTurn_of_error (h : s.handleDataPhase cfg a = (t, some e)) :
    (s.dataTurn cfg a).store = t.store ∧
      (s.dataTurn cfg a).replies = t.replies ++ [errorReply e] := by
  unfold dataTurn
  rw [h]
  dsimp only
  split
  · exact ⟨rfl, rfl⟩
  · exact ⟨rfl, rfl⟩

theorem dataTurn_verdict :
    Verdict cfg a s (s.dataTurn cfg a)
      (match (s.readMessage cfg a).1 with
        | .ok content => some content
        | .error _ => none) := by
  obtain ⟨content, reader, hread⟩ | ⟨e, reader, lost, hread⟩ := readMessage_cases cfg a s
  · have hphase : s.handleDataPhase cfg a = processSpool cfg a { s with
        reader := reader, state := { s.state with dataSize := content.length } } content := by
      simp [handleDataPhase, hread]
    rw [hread]
    unfold processSpool at hphase
    by_cases hreads : a.headReads = false
    · rw [if_pos hreads] at hphase
      obtain ⟨hend, hreply⟩ := dataTurn_of_error hphase
      refine .unreadable content hend ?_ hreads
      rw [hreply]
      exact append_error_ne _ _
    · rw [if_neg hreads] at hphase
      rcases hproc : processMessage cfg a.delivery { s.state with dataSize := content.length } content
        s.store with ⟨r, st, store⟩
      rw [hproc] at hphase
      cases r with
      | some e =>
        obtain ⟨rfl, rfl⟩ := processMessage_of_error hproc
        obtain ⟨hend, hreply⟩ := dataTurn_of_error hphase
        refine .refused content e s.state.dataTransferMode _ hproc hend ?_
        rw [hreply]
        exact append_error_ne _ e
      | none =>
        have hturn : s.dataTurn cfg a =
            { s.write accepted with state := st.reset, store := store, reader := reader } := by
          unfold dataTurn
          rw [hphase]
          rfl
        rw [hturn]
        exact .accepted content s.state.dataTransferMode st hproc (eq_true_of_ne_false hreads) rfl
  · -- the message could not be read
    have hphase : s.handleDataPhase cfg a =
        ({ s with reader := reader, dataSyncLost := lost }, some e) := by
      simp [handleDataPhase, hread, refuse]
    obtain ⟨hstore, hreply⟩ := dataTurn_of_error hphase
    rw [hread]
    refine .incomplete hstore ?_
    rw [hreply]
    exact append_error_ne _ e

/-! ## The last chunk -/

theorem incomplete_of_same (hstore : s'.store = s.store) (hreplies : s'.replies = s.replies) :
    Verdict cfg a s s' none := by
  refine .incomplete hstore ?_
  rw [hreplies]
  intro h
  simpa using congrArg List.length h

theorem finish_of_error (hstore : t.store = s.store) (hreplies : t.replies = s.replies) :
    (finish a (t, some e)).store = s.store ∧
      (finish a (t, some e)).replies ≠ s.replies ++ [accepted] := by
  refine ⟨(store_finish a (t, some e)).trans hstore, ?_⟩
  rw [replies_finish_error, hreplies]
  exact append_error_ne _ e

theorem incomplete_of_refuse (hstore : t.store = s.store) (hreplies : t.replies = s.replies) :
    Verdict cfg a s (finish a (t, some e)) none :=
  .incomplete (finish_of_error hstore hreplies).1 (finish_of_error hstore hreplies).2

theorem completeChunks_verdict {content : Bytes} (hspool : t.bdatSpool = some content)
    (hstate : t.state = { s.state with dataTransferMode := .bdat }) (hstore : t.store = s.store)
    (hreplies : t.replies = s.replies) :
    Verdict cfg a s (finish a (t.completeChunks cfg a)) (some content) := by
  have hrefused (e : Bytes) := finish_of_error (a := a) (e := e) (t := { t.resetBDAT with
    state := { t.state with dataSize := content.length, dataTransferMode := .none } }) hstore hreplies
  unfold completeChunks processBDATMessage
  rw [hspool]
  dsimp only
  by_cases hreads : a.headReads = false
  · rw [if_pos hreads]
    exact .unreadable content (hrefused _).1 (hrefused _).2 hreads
  rw [if_neg hreads]
  rcases hproc : processMessage cfg a.delivery { t.state with dataSize := content.length } content
    t.store with ⟨r, st, store⟩
  cases r with
  | some e =>
    obtain ⟨rfl, rfl⟩ := processMessage_of_error hproc
    rw [hstate, hstore] at hproc
    exact .refused content e .bdat _ hproc (hrefused e).1 (hrefused e).2
  | none =>
    rw [hstate, hstore] at hproc
    refine .accepted content .bdat st ?_ (eq_true_of_ne_false hreads) ?_
    · rw [hproc, store_finish]
      rfl
    · rw [replies_finish_none]
      change t.replies ++ [accepted] = _
      rw [hreplies]

theorem transferChunk_verdict (hlive : s.live = true) (size : Int) :
    Verdict cfg a s (finish a (s.transferChunk cfg a size true)) (s.chunkMessage cfg a size) := by
  have hreject (e : Bytes) : Verdict cfg a s (finish a (s.rejectChunk a size e)) none := by
    obtain ⟨reader, lost, hdiscard⟩ := discardBDATChunk_form a s size
    rw [rejectChunk, hdiscard]
    exact incomplete_of_refuse rfl rfl
  unfold transferChunk chunkMessage
  by_cases hrcpt : s.state.rcptTo = []
  · rw [if_pos hrcpt, if_pos (.inl hrcpt)]
    exact hreject _
  rw [if_neg hrcpt]
  by_cases hmode : s.state.canAcceptDataCommand .bdat = false
  · rw [if_pos hmode, if_pos (.inr hmode)]
    exact hreject _
  rw [if_neg hmode, if_neg (by simp [hrcpt, hmode])]
  obtain ⟨e, spool, reader, lost, hres⟩ | hres | ⟨body, reader, -, -, hres⟩ :=
    readBDATChunk_cases size
  · rw [hres]
    exact incomplete_of_refuse rfl rfl
  · rw [hres]
    exact incomplete_of_same rfl rfl
  · rw [hres]
    have ht : (s.beginChunk.withChunk reader size body).live = true := hlive
    simp only [chunkRead, ht, Bool.true_eq_false, if_false, if_true]
    exact completeChunks_verdict rfl rfl rfl rfl

/-! ## The turn -/

/-- A verdict looks at the envelope, the queue and the replies only. -/
theorem Verdict.congr {message : Option Bytes} (h : Verdict cfg a t s' message)
    (hstate : t.state = s.state) (hstore : t.store = s.store) (hreplies : t.replies = s.replies) :
    Verdict cfg a s s' message := by
  cases h with
  | incomplete store replies => exact .incomplete (store.trans hstore) (hreplies ▸ replies)
  | unreadable content store replies reads =>
    exact .unreadable content (store.trans hstore) (hreplies ▸ replies) reads
  | refused content e mode st processed store replies =>
    rw [hstate, hstore] at processed
    exact .refused content e mode st processed (store.trans hstore) (hreplies ▸ replies)
  | accepted content mode st processed reads replies =>
    rw [hstate, hstore] at processed
    exact .accepted content mode st processed reads (hreplies ▸ replies)

theorem processCommand_verdict (hlive : s.live = true)
    {line : Bytes} {size : Int} (hnamed : (splitCommand line).1 = lit "BDAT")
    (hparse : parseBDAT (splitCommand line).2 = .ok (size, true)) :
    Verdict cfg a s (finish a (s.processCommand cfg a line)) (s.commandMessage cfg a line) := by
  unfold processCommand
  cases hvalid : Validator.validateCommand cfg.parseIP a.commandMemoryOk line with
  | some e =>
    have hmessage : s.commandMessage cfg a line = none := if_pos (.inl (by simp [hvalid]))
    rw [hmessage]
    exact incomplete_of_refuse rfl rfl
  | none =>
    dsimp only
    unfold processParsed
    by_cases hcan : s.state.canAcceptCommand (splitCommand line).1 = false
    · have hmessage : s.commandMessage cfg a line = none := if_pos (.inr (.inl hcan))
      rw [hmessage, if_pos hcan]
      split
      · obtain ⟨reader, lost, hdiscard⟩ := discardRefusedBDAT_form a s (splitCommand line).2
        rw [hdiscard]
        exact incomplete_of_refuse rfl rfl
      · exact incomplete_of_refuse rfl rfl
    · have hmessage : s.commandMessage cfg a line = s.chunkMessage cfg a size := by
        unfold commandMessage
        rw [if_neg (by simp [hvalid, hnamed, hnamed ▸ hcan]), hparse]
      have hdispatch : s.dispatch cfg a line (splitCommand line).1 (splitCommand line).2 =
          s.transferChunk cfg a size true := by
        rw [hnamed]
        simp [dispatch_named, handleBDAT, hparse]
      rw [hmessage, if_neg hcan, hdispatch]
      exact transferChunk_verdict hlive size

/-- Every turn that ends a message has one of the verdicts on what was received. -/
theorem turn_verdict (cfg : Config) (a : Answers) (hend : s.EndsMessage) :
    Verdict cfg a s (turn cfg s a) (s.received cfg a) := by
  unfold turn
  by_cases hdead : s.live = false
  · have hmessage : s.received cfg a = none := if_pos (.inl hdead)
    rw [hmessage, if_pos hdead]
    exact incomplete_of_same rfl rfl
  by_cases hstop : a.stop = true
  · have hmessage : s.received cfg a = none := if_pos (.inr hstop)
    rw [hmessage, if_neg hdead, if_pos hstop]
    exact incomplete_of_same rfl rfl
  have hgoes : ¬(s.live = false ∨ a.stop = true) := fun h => h.elim hdead hstop
  rw [if_neg hdead, if_neg hstop]
  unfold received
  rw [if_neg hgoes]
  by_cases hphase : s.state.phase = .data
  · rw [if_pos hphase, if_pos hphase]
    by_cases hflush : a.flushes = true
    · rw [if_pos hflush, if_pos hflush]
      exact dataTurn_verdict
    · rw [if_neg hflush, if_neg hflush]
      exact incomplete_of_same rfl rfl
  · rw [if_neg hphase, if_neg hphase]
    obtain ⟨line, rest, size, hheard, hnamed, hparse⟩ := hend.resolve_left hphase
    unfold heard at hheard
    unfold commandTurn
    rcases hline : s.reader.boundedLine readerSize commandLineLimit with
      ⟨_ | ⟨text, _ | stop⟩, r⟩ <;> rw [hline] at hheard
    · simp at hheard
    · obtain rfl : text = line := (Prod.mk.inj (Option.some.inj hheard)).1
      exact (processCommand_verdict (s := { s with reader := r })
        (eq_true_of_ne_false hdead) hnamed hparse).congr rfl rfl rfl
    · simp at hheard

end Session

/-! ## Truthful answers -/

/-- A 250 means that exactly one entry with this envelope and this message was created, and any
other answer that the queue is as it was. -/
structure AnswersTruly (cfg : Config) (a : Answers) (s s' : Session) : Prop where
  accepted : s'.replies = s.replies ++ [Session.accepted] → ∃ content,
    s.received cfg a = some content ∧
      CreatedOne s.state a.delivery.id (storedBody cfg content) s.store s'.store
  refused : s'.replies ≠ s.replies ++ [Session.accepted] → s'.store = s.store

variable {st : SessionState}

/-- Size and mode of the transfer play no part in the checks. -/
theorem refusedInSilence_congr {cfg : Config} {env : DeliveryEnv} {content : Bytes}
    (size : Nat) (mode : DataTransferMode) :
    RefusedInSilence cfg env { st with dataSize := size, dataTransferMode := mode } content ↔
      RefusedInSilence cfg env st content :=
  Iff.rfl

theorem not_createdOne_self {id body : Bytes} {s : Queue.Store} : ¬CreatedOne st id body s s := by
  rintro ⟨fresh, ⟨m, hentries, -⟩, -, -⟩
  have hentry := congrFun hentries id
  rw [fresh] at hentry
  simp at hentry

/-- In every session, whatever the queue holds by then, the end of DATA and the last chunk are
answered truthfully exactly when the message is not one that is refused in silence. -/
theorem answersTruly_iff (cfg : Config) (now : Nat) (conn : List (Arrival Fault))
    (start : Queue.Store) (answers : List Answers) {store : Queue.Store} (hstore : store.WF)
    (a : Answers) (hid : store.Unused a.delivery.id) {s : Session}
    (hs : s = { (Session.start cfg now conn start).run cfg answers with store := store })
    (hend : s.EndsMessage) :
    AnswersTruly cfg a s (s.turn cfg a) ↔
      ∀ content, s.received cfg a = some content → a.headReads = true →
        ¬RefusedInSilence cfg a.delivery s.state content := by
  have htext : s.state.IsText := by
    rw [hs]
    exact isText_run cfg ⟨rfl, by simp [Session.start, SessionState.new]⟩ answers
  have hwf : s.store.WF := by
    rw [hs]
    exact hstore
  have hunused : s.store.Unused a.delivery.id := by
    rw [hs]
    exact hid
  have hverdict := Session.turn_verdict cfg a hend
  generalize hmessage : s.received cfg a = message at hverdict
  constructor
  · intro htruly content hcontent hreads hsilent
    obtain rfl := hcontent
    cases hverdict with
    | unreadable _ _ _ hunread => simp [hreads] at hunread
    | refused _ e mode st processed _ _ =>
      have hnone := ((refusedInSilence_congr content.length mode).2 hsilent).processMessage s.store
      rw [hnone] at processed
      simp at processed
    | accepted _ mode st processed _ hreplies =>
      have hnone := ((refusedInSilence_congr content.length mode).2 hsilent).processMessage s.store
      rw [hnone] at processed
      obtain ⟨content', -, hcreated⟩ := htruly.accepted hreplies
      rw [← (Prod.mk.inj (Prod.mk.inj processed).2).2] at hcreated
      exact not_createdOne_self hcreated
  · intro hcondition
    cases hverdict with
    | incomplete hsame hreplies => exact ⟨fun h => absurd h hreplies, fun _ => hsame⟩
    | unreadable content hsame hreplies _ => exact ⟨fun h => absurd h hreplies, fun _ => hsame⟩
    | refused content e mode st _ hsame hreplies =>
      exact ⟨fun h => absurd h hreplies, fun _ => hsame⟩
    | accepted content mode st processed hreads hreplies =>
      refine ⟨fun _ => ⟨content, hmessage, ?_⟩, fun h => absurd hreplies h⟩
      rcases processMessage_of_none processed with ⟨-, -, subject, header, hsave⟩ | ⟨hsilent, -⟩
      · have htext' : ({ s.state with
            dataSize := content.length, dataTransferMode := mode } : SessionState).IsText :=
          ⟨htext.mailFrom, htext.rcptTo⟩
        have hone := createdOne_of_saveMessage hwf hunused htext' hsave
        exact ⟨hone.fresh, hone.entry, hone.content, hone.others⟩
      · exact absurd ((refusedInSilence_congr content.length mode).1 hsilent)
          (hcondition content rfl hreads)

/-! ## Two messages -/

def sessionBefore (message : Bytes) : Session :=
  { (Session.start (.plain none) 0 (arrives (lit "EHLO c.example\r\nMAIL FROM:<a@c.example>\r\n" ++
      lit "RCPT TO:<b@here.example>\r\nDATA\r\nFrom: a@c.example\r\n" ++
      lit "Date: Mon, 1 Jan 2024 00:00:00 +0000\r\n" ++ message ++ lit "\r\n.\r\n")) .empty).run
        (.plain none) (List.replicate 4 (.calm 0 (lit "m1"))) with store := .empty }

/-- A plain message is answered truthfully. -/
theorem plain_message_answersTruly :
    AnswersTruly (.plain none) (.calm 0 (lit "m1")) (sessionBefore (lit "\r\nhi"))
      ((sessionBefore (lit "\r\nhi")).turn (.plain none) (.calm 0 (lit "m1"))) := by
  refine (answersTruly_iff (.plain none) 0 _ .empty _ .empty (.calm 0 (lit "m1")) ⟨rfl, rfl, rfl⟩ rfl
    (.inl ?_)).2 ?_
  · decide +kernel
  · intro content hcontent _ hsilent
    have hclean : (Session.received (.plain none) (.calm 0 (lit "m1"))
        (sessionBefore (lit "\r\nhi"))).all (fun content =>
          !contentRefused (.plain none) (.calm (lit "m1")) (content.take defaultHeadSize)) = true := by
      decide +kernel
    have hreceived : Session.received (.plain none) (.calm 0 (lit "m1"))
        (sessionBefore (lit "\r\nhi")) = some content := hcontent
    rw [hreceived] at hclean
    have hrefused : contentRefused (.plain none) (.calm (lit "m1")) (content.take defaultHeadSize) =
        true := hsilent.2.2.2.2.2
    simp [hrefused] at hclean

/-- A message with an attachment of a dangerous type is answered with 250 and not stored. -/
theorem attachment_dropped_with_250 :
    (sessionBefore (lit "Content-Type: application/octet-stream\r\n\r\nhi")).EndsMessage ∧
    ¬AnswersTruly (.plain none) (.calm 0 (lit "m1"))
      (sessionBefore (lit "Content-Type: application/octet-stream\r\n\r\nhi"))
      ((sessionBefore (lit "Content-Type: application/octet-stream\r\n\r\nhi")).turn (.plain none)
        (.calm 0 (lit "m1"))) := by
  generalize hmessage : lit "Content-Type: application/octet-stream\r\n\r\nhi" = message
  have hphase : (sessionBefore message).state.phase = .data := by
    subst hmessage
    decide +kernel
  refine ⟨.inl hphase, fun htruly => ?_⟩
  have hreplies : ((sessionBefore message).turn (.plain none) (.calm 0 (lit "m1"))).replies =
      (sessionBefore message).replies ++ [Session.accepted] := by
    subst hmessage
    decide +kernel
  have habsent : (((sessionBefore message).turn (.plain none)
      (.calm 0 (lit "m1"))).store.entries (lit "m1")).isNone = true := by
    subst hmessage
    decide +kernel
  obtain ⟨content, -, hone⟩ := htruly.accepted hreplies
  obtain ⟨m, hentries, -⟩ := hone.entry
  have hentry := congrFun hentries (lit "m1")
  have hid : (Answers.calm 0 (lit "m1")).delivery.id = lit "m1" := rfl
  rw [hid] at hentry
  rw [hentry] at habsent
  simp at habsent

end Elemta.Smtp
