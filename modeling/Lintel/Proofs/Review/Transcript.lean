import Lintel.Proofs.Review.Bound

/-!
# What the model is sent

* `Turn`: a response that asks for tools, with the results of the tools; `turnsOf`: the turns among the
  replies of the model;
* `Turn.Answered`, `answered_of_mem_turnsOf`: each call of a turn has one result, in the order of the calls;
* `Course.sent_eq`, `Course.messages_eq`: what is sent, and what is known after each stage, from some point
  of a conversation on;
* **`run_transcript`**: whatever is sent consists of the first two messages and all turns so far.
-/

namespace Lintel.Review

/-! ## Turns -/

/-- A response that asks for tools, and the results of the tools. -/
structure Turn where
  content : Json
  calls : List ToolCall
  results : List ToolResult

/-- The messages of a turn: the response, and the results right after it. -/
def Turn.messages (turn : Turn) : List Message :=
  .model turn.content turn.calls :: turn.results.map .tool

/-- Each call has one result, under its name and its id, in the order of the calls. -/
def Turn.Answered (turn : Turn) : Prop :=
  List.Forall₂ (fun call result => result.name = call.name ∧ result.id = call.id.getD "")
    turn.calls turn.results

variable (tools : Toolset)

/-- The turn that a reply makes, if it asks for tools. -/
def turnOf : Reply → Option Turn
  | .ok (.message _ [] _) => none
  | .ok (.message content calls _) => some ⟨content, calls, calls.map tools.execute⟩
  | _ => none

/-- The turns that some exchanges make. -/
def turnsOf (exchanges : List Exchange) : List Turn :=
  exchanges.filterMap fun exchange => turnOf tools exchange.reply

theorem execute_answers (call : ToolCall) :
    (tools.execute call).name = call.name ∧ (tools.execute call).id = call.id.getD "" := by
  rw [Toolset.execute]
  split
  · exact ⟨rfl, rfl⟩
  · split <;> exact ⟨rfl, rfl⟩

theorem turnOf_answered {reply : Reply} {turn : Turn} (h : turnOf tools reply = some turn) :
    turn.Answered := by
  have hall : ∀ calls : List ToolCall, List.Forall₂ (fun call result => result.name = call.name ∧
      result.id = call.id.getD "") calls (calls.map tools.execute) := by
    intro calls
    rw [List.forall₂_map_right_iff]
    exact List.forall₂_same.mpr fun call _ => execute_answers tools call
  match reply, h with
  | .ok (.message content (call :: calls) _), h =>
    cases h
    exact hall (call :: calls)

theorem answered_of_mem_turnsOf {exchanges : List Exchange} :
    ∀ turn ∈ turnsOf tools exchanges, turn.Answered := by
  intro turn hmem
  obtain ⟨exchange, -, hturn⟩ := List.mem_filterMap.mp hmem
  exact turnOf_answered tools hturn

theorem turnsOf_append (first second : List Exchange) :
    turnsOf tools (first ++ second) = turnsOf tools first ++ turnsOf tools second :=
  List.filterMap_append

theorem turnsOf_failures {exchanges : List Exchange}
    (h : ∀ exchange ∈ exchanges, exchange.Failed) : turnsOf tools exchanges = [] := by
  refine List.filterMap_eq_nil_iff.mpr fun exchange hmem => ?_
  obtain ⟨reason, hreason⟩ := h exchange hmem
  rw [hreason]
  rfl

/-! ## Turns of a call -/

section Retried

variable {attempts : ℕ} {messages : List Message} {exchanges : List Exchange} {outcome : Reply}

theorem Retried.turnsOf_take (h : Retried attempts messages exchanges outcome) {k : ℕ}
    (hk : k < exchanges.length) : turnsOf tools (exchanges.take k) = [] := by
  obtain ⟨rfl, -, -⟩ | ⟨failures, last, rfl, hfailures, -, -⟩ := h.ends
  · rw [List.take_nil]
    rfl
  · rw [List.length_append, List.length_singleton] at hk
    rw [List.take_append_of_le_length (by omega)]
    exact turnsOf_failures tools fun exchange hmem => hfailures exchange (List.mem_of_mem_take hmem)

theorem Retried.turnsOf_eq (h : Retried attempts messages exchanges outcome) {content : Json}
    {calls : List ToolCall} {malformed : List Json}
    (houtcome : outcome = .ok (.message content calls malformed)) (hcalls : calls ≠ []) :
    turnsOf tools exchanges = [⟨content, calls, calls.map tools.execute⟩] := by
  obtain ⟨-, -, hnone⟩ | ⟨failures, last, rfl, hfailures, hlast, -⟩ := h.ends
  · rw [hnone] at houtcome
    cases houtcome
  · have hreply := Exchange.reply_of_outcome (hlast.symm.trans houtcome)
    obtain ⟨call, rest, rfl⟩ := List.exists_cons_of_ne_nil hcalls
    rw [turnsOf_append, turnsOf_failures tools hfailures, turnsOf, List.filterMap_cons, hreply]
    rfl

theorem Retried.sent_getElem? (h : Retried attempts messages exchanges outcome) {k : ℕ}
    {exchange : Exchange} (hk : exchanges[k]? = some exchange) :
    exchange.sent = messages ++ (turnsOf tools (exchanges.take k)).flatMap Turn.messages := by
  obtain ⟨hlt, -⟩ := List.getElem?_eq_some_iff.mp hk
  rw [h.turnsOf_take tools hlt, List.flatMap_nil, List.append_nil]
  exact h.sent exchange (List.mem_of_getElem? hk)

end Retried

/-! ## Courses -/

variable {tools} {limits : Limits} {progress : Progress} {inquiries : List Inquiry} {walk : Walk}

theorem messages_answered_asking {inquiry : Inquiry} {content : Json} {calls : List ToolCall}
    {malformed : List Json} (houtcome : inquiry.outcome = .ok (.message content calls malformed)) :
    ((progress.asking (replyMessage inquiry.outcome) calls).answered tools).messages =
      progress.messages ++ (⟨content, calls, calls.map tools.execute⟩ : Turn).messages := by
  simp only [Progress.answered, Progress.asking, houtcome, replyMessage, Response.toMessage,
    Turn.messages, List.map_map, List.append_assoc, List.singleton_append]
  rfl

/-- **What is sent** from some point of a conversation on. -/
theorem Course.sent_eq (h : Course tools limits progress inquiries walk) {k : ℕ}
    {exchange : Exchange} (hk : (inquiries.flatMap (·.exchanges))[k]? = some exchange) :
    exchange.sent = progress.messages ++
      (turnsOf tools ((inquiries.flatMap (·.exchanges)).take k)).flatMap Turn.messages := by
  induction h generalizing k with
  | overtime => cases hk
  | broken early asked | failed early asked | done early asked =>
    rw [List.flatMap_singleton] at hk ⊢
    exact asked.sent_getElem? tools hk
  | @tools progress inquiry calls inquiries walk early asked means rest ih =>
    obtain ⟨content, malformed, houtcome, hcalls⟩ := readReply_tools means
    rw [List.flatMap_cons] at hk ⊢
    by_cases hlt : k < inquiry.exchanges.length
    · rw [List.getElem?_append_left hlt] at hk
      rw [List.take_append_of_le_length (by omega)]
      exact asked.sent_getElem? tools hk
    · obtain ⟨j, rfl⟩ : ∃ j, k = inquiry.exchanges.length + j :=
        ⟨k - inquiry.exchanges.length, by omega⟩
      rw [List.getElem?_append_right (by omega), Nat.add_sub_cancel_left] at hk
      rw [List.take_length_add_append, turnsOf_append, asked.turnsOf_eq tools houtcome hcalls,
        List.flatMap_append, List.flatMap_singleton, ← List.append_assoc,
        ← messages_answered_asking houtcome]
      exact ih hk

/-! ## States -/

/-- These messages at the end have not been answered: a request for the tools that wait, or the review that
ends the conversation. -/
def Progress.Unanswered (progress : Progress) (last : List Message) : Prop :=
  match progress.status with
  | .toolDispatch => ∃ content, last = [.model content progress.pending]
  | .done => ∃ content, last = [.model content []]
  | .awaitingModel | .failed => last = []

/-- The messages are the first ones, the turns had since then, and what has not been answered. When the
first messages were sent there had been some turns before; a turn that failed leaves no messages. -/
def Progress.Transcribes (progress : Progress) (before : ℕ) (first : List Message)
    (turns : List Turn) : Prop :=
  ∃ last, progress.Unanswered last ∧
    progress.messages = first ++ turns.flatMap Turn.messages ++ last ∧
    (progress.turns = before + turns.length + last.length ∨
      progress.status = .failed ∧ progress.turns = before + turns.length + 1)

/-- **What is known** after each stage from some point of a conversation on. -/
theorem Course.messages_eq (h : Course tools limits progress inquiries walk) :
    ∀ visit ∈ walk.visited, ∃ k, visit.2.Transcribes progress.turns progress.messages
      (turnsOf tools ((inquiries.flatMap (·.exchanges)).take k)) := by
  induction h with
  | overtime =>
    intro visit hvisit
    rw [List.mem_singleton.mp hvisit]
    refine ⟨0, [], rfl, ?_, .inl rfl⟩
    rw [List.take_zero, turnsOf, List.filterMap_nil, List.flatMap_nil, List.append_nil,
      List.append_nil]
    rfl
  | failed =>
    intro visit hvisit
    rw [List.mem_singleton.mp hvisit]
    refine ⟨0, [], rfl, ?_, .inr ⟨rfl, rfl⟩⟩
    rw [List.take_zero, turnsOf, List.filterMap_nil, List.flatMap_nil, List.append_nil,
      List.append_nil]
    rfl
  | broken => intro visit hvisit; cases hvisit
  | @done progress inquiry review early asked means =>
    intro visit hvisit
    obtain ⟨content, houtcome, -⟩ := readReply_done means
    rw [List.mem_singleton.mp hvisit]
    refine ⟨0, [.model content []], ⟨content, rfl⟩, ?_, .inl rfl⟩
    rw [List.take_zero, turnsOf, List.filterMap_nil, List.flatMap_nil, List.append_nil, houtcome]
    rfl
  | @tools progress inquiry calls inquiries walk early asked means rest ih =>
    intro visit hvisit
    obtain ⟨content, malformed, houtcome, hcalls⟩ := readReply_tools means
    have hturns : ∀ j, turnsOf tools ((inquiry.exchanges ++ inquiries.flatMap (·.exchanges)).take
        (inquiry.exchanges.length + j)) = ⟨content, calls, calls.map tools.execute⟩ ::
          turnsOf tools ((inquiries.flatMap (·.exchanges)).take j) := by
      intro j
      rw [List.take_length_add_append, turnsOf_append, asked.turnsOf_eq tools houtcome hcalls]
      rfl
    rw [List.flatMap_cons]
    rcases List.mem_cons.mp hvisit with rfl | hvisit
    · -- the request is still open
      refine ⟨0, [.model content calls], ⟨content, rfl⟩, ?_, .inl rfl⟩
      rw [List.take_zero, turnsOf, List.filterMap_nil, List.flatMap_nil, List.append_nil, houtcome]
      rfl
    rcases List.mem_cons.mp hvisit with rfl | hvisit
    · -- the tools have just answered
      refine ⟨inquiry.exchanges.length + 0, [], rfl, ?_, .inl ?_⟩
      · rw [hturns 0, List.take_zero, List.append_nil, messages_answered_asking houtcome]
        simp [turnsOf]
      · rw [hturns 0, List.take_zero]
        rfl
    · obtain ⟨j, last, hopen, hmessages, hcount⟩ := ih visit hvisit
      refine ⟨inquiry.exchanges.length + j, last, hopen, ?_, ?_⟩
      · rw [hmessages, hturns j, messages_answered_asking houtcome, List.flatMap_cons]
        simp only [List.append_assoc]
      · rw [hturns j, List.length_cons]
        simp only [Progress.answered, Progress.asking] at hcount
        rcases hcount with hcount | ⟨hfailed, hcount⟩
        · exact .inl (by omega)
        · exact .inr ⟨hfailed, by omega⟩

/-! ## Whole conversations -/

/-- Each call of a conversation sends the first messages and all turns before it. Every call of a tool is
answered, each call of the model sends no less than the one before, and one that is tried again sends the
same. -/
structure Transcribed (tools : Toolset) (first : List Message) (exchanges : List Exchange) : Prop where
  sent : ∀ k exchange, exchanges[k]? = some exchange →
    exchange.sent = first ++ (turnsOf tools (exchanges.take k)).flatMap Turn.messages
  answered : ∀ turn ∈ turnsOf tools exchanges, turn.Answered
  grows : ∀ k exchange next, exchanges[k]? = some exchange → exchanges[k + 1]? = some next →
    exchange.sent <+: next.sent
  repeats : ∀ k exchange next, exchanges[k]? = some exchange → exchanges[k + 1]? = some next →
    exchange.Failed → next.sent = exchange.sent

theorem Transcribed.of_sent {first : List Message} {exchanges : List Exchange}
    (h : ∀ k exchange, exchanges[k]? = some exchange →
      exchange.sent = first ++ (turnsOf tools (exchanges.take k)).flatMap Turn.messages) :
    Transcribed tools first exchanges := by
  have hnext : ∀ k exchange next, exchanges[k]? = some exchange →
      exchanges[k + 1]? = some next → next.sent = exchange.sent ++
        (turnsOf tools [exchange]).flatMap Turn.messages := by
    intro k exchange next hk hk'
    rw [h k exchange hk, h (k + 1) next hk', List.take_add_one, hk, turnsOf_append,
      List.flatMap_append, List.append_assoc]
    rfl
  refine ⟨h, answered_of_mem_turnsOf tools, ?_, ?_⟩
  · intro k exchange next hk hk'
    rw [hnext k exchange next hk hk']
    exact List.prefix_append _ _
  · intro k exchange next hk hk' hfailed
    rw [hnext k exchange next hk hk', turnsOf_failures tools (by simpa using hfailed),
      List.flatMap_nil, List.append_nil]

theorem play_walk_of_few {σ : Type} (model : Talk.Model σ) (memory : σ) (time : Seconds)
    (system human : String) (loop : Loop) (h : loop.turns < -1) :
    (loop.walk system human).play model memory time =
      ⟨.broken (.stepLimit loop.stepLimit), memory, time, []⟩ := by
  have hzero : loop.stepLimit.toNat = 0 := by
    rw [Loop.stepLimit]
    omega
  rw [Loop.walk, hzero]
  rfl

/-- **Whatever is sent is the whole conversation so far**, in the order of its turns and of the calls in
them, each call with its one result; and so is whatever is known after a stage. -/
theorem run_transcript {σ : Type} (model : Talk.Model σ) (memory : σ) (time : Seconds)
    (system human : String) (tools : Toolset) (limits : Limits)
    (ends : (progress : Progress) → EndOrder progress.pending.length) :
    let loop := Loop.ofLimits tools limits ends
    let first : List Message := [.system system, .human human]
    let exchanges := ((loop.run system human).play model memory time).exchanges
    Transcribed tools first exchanges ∧
      ∀ visit ∈ ((loop.walk system human).play model memory time).value.visited,
        ∃ k, visit.2.Transcribes 0 first (turnsOf tools (exchanges.take k)) := by
  intro loop first exchanges
  have hexchanges := exchanges_run model memory time system human loop
  by_cases hturns : -1 ≤ limits.turns
  · obtain ⟨inquiries, hflat, hcourse⟩ :=
      course_walk tools limits ends model system human memory time hturns
    have hall : exchanges = inquiries.flatMap (·.exchanges) := hexchanges.trans hflat
    rw [hall]
    exact ⟨.of_sent fun k exchange hk => hcourse.sent_eq hk, hcourse.messages_eq⟩
  · have hplay := play_walk_of_few model memory time system human loop (by
      change limits.turns < -1
      omega)
    have hall : exchanges = [] := hexchanges.trans (by rw [hplay])
    rw [hall, hplay]
    refine ⟨.of_sent fun k exchange hk => ?_, fun visit hvisit => ?_⟩
    · cases hk
    · cases hvisit

end Lintel.Review
