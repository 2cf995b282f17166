import Lintel.Proofs.Review.Bound

/-!
# How conversations end

* `AsksTools`, `Reviews`: the outcomes of a call of the model that let a conversation go on, and that
  end it well; `verdict_failed_ne_empty`: all others give a reason;
* `Course.ends`: a course ends at the first outcome that does not ask for tools, or when all turns are
  used up;
* `Decided`: the ending that a sequence of outcomes decides; **`run_decided`**: a conversation with any model
  ends as the outcomes of its calls decide.
-/

namespace Lintel.Review

/-! ## Outcomes -/

/-- The outcome is a message that asks for a tool. -/
def AsksTools : Reply → Prop
  | .ok (.message _ calls _) => calls ≠ []
  | _ => False

/-- The outcome is a message with this review: there are no calls and no malformed ones, and the text, which
is not blank, is the review up to blanks at its ends. -/
def Reviews (reply : Reply) (review : String) : Prop :=
  ∃ content, reply = .ok (.message content [] []) ∧ Spoken (spoken content) ∧
    review = Text.trim (spoken content)

theorem Reviews.not_asksTools {reply : Reply} {review : String} (h : Reviews reply review) :
    ¬ AsksTools reply := by
  obtain ⟨content, rfl, -⟩ := h
  exact fun hne => hne rfl

theorem Reviews.unique {reply : Reply} {review other : String} (h : Reviews reply review)
    (h' : Reviews reply other) : review = other := by
  obtain ⟨content, rfl, -, rfl⟩ := h
  obtain ⟨content', heq, -, rfl⟩ := h'
  cases heq
  rfl

theorem asksTools_of_readReply {reply : Reply} {calls : List ToolCall}
    (h : readReply reply = .ok (.tools calls)) : AsksTools reply := by
  obtain ⟨content, malformed, rfl, hcalls⟩ := readReply_tools h
  exact hcalls

theorem reviews_of_readReply {reply : Reply} {review : String}
    (htextual : ∀ response, reply = .ok response → response.Textual)
    (h : readReply reply = .ok (.done review)) : Reviews reply review := by
  obtain ⟨content, rfl, hstep⟩ := readReply_done h
  rw [contentText_eq (htextual _ rfl)] at hstep
  by_cases hspoken : Spoken (spoken content)
  · refine ⟨content, rfl, hspoken, ?_⟩
    have hdone : Step.ofText (spoken content) = .done review := Except.ok.inj hstep
    rw [ofText_of_spoken hspoken] at hdone
    exact (Step.done.inj hdone).symm
  · have hdone : Step.ofText (spoken content) = .done review := Except.ok.inj hstep
    rw [ofText_of_not_spoken hspoken] at hdone
    cases hdone

theorem readReply_of_reviews {reply : Reply} {review : String}
    (htextual : ∀ response, reply = .ok response → response.Textual)
    (h : Reviews reply review) : readReply reply = .ok (.done review) := by
  obtain ⟨content, rfl, hspoken, rfl⟩ := h
  rw [readReply_eq htextual, verdict, if_neg (not_not.mpr rfl), if_neg (not_not.mpr rfl),
    ofText_of_spoken hspoken]

theorem readReply_of_asksTools {reply : Reply} (h : AsksTools reply) :
    ∃ calls, readReply reply = .ok (.tools calls) := by
  match reply, h with
  | .ok (.message _ (call :: calls) _), _ => exact ⟨call :: calls, rfl⟩
  | .ok (.message _ [] _), h => exact absurd rfl h

/-! ## Errors -/

/-- A failure of the conversation has a reason. -/
theorem verdict_failed_ne_empty {reply : Reply} {error : String}
    (hreply : ∀ reason, reply = .error reason → reason ≠ "")
    (h : verdict reply = .failed error) : error ≠ "" := by
  cases reply with
  | error reason =>
    cases h
    exact hreply _ rfl
  | ok response =>
    cases response with
    | other type =>
      cases h
      exact Text.append_ne_empty (by decide) _
    | message content calls malformed =>
      rw [verdict] at h
      split at h
      · cases h
      split at h
      · cases h
        exact Text.append_ne_empty (by decide) _
      · by_cases hspoken : Spoken (spoken content)
        · rw [ofText_of_spoken hspoken] at h
          cases h
        · rw [ofText_of_not_spoken hspoken] at h
          cases h
          decide

theorem Retried.outcome_ne_empty {attempts : ℕ} {messages : List Message}
    {exchanges : List Exchange} {outcome : Reply}
    (h : Retried attempts messages exchanges outcome) :
    ∀ reason, outcome = .error reason → reason ≠ "" := by
  intro reason herror
  obtain ⟨-, -, hnone⟩ | ⟨failures, last, -, -, hlast, -⟩ := h.ends
  · rw [hnone] at herror
    cases herror
  · rw [hlast] at herror
    cases hreply : last.reply with
    | ok response => rw [Exchange.outcome_of_ok hreply] at herror; cases herror
    | error cause =>
      rw [Exchange.outcome_of_error hreply] at herror
      cases herror
      exact Text.append_ne_empty (by decide) _

/-! ## Ends of courses -/

/-- The conversation ended with a review. -/
structure Progress.HasReview (last : Progress) (review : String) : Prop where
  status : last.status = .done
  review : last.review = some review
  error : last.error = none

/-- The conversation ended with an error. -/
structure Progress.HasFailed (last : Progress) : Prop where
  status : last.status = .failed
  review : last.review = none
  error : ∃ error, last.error = some error ∧ error ≠ ""

/-- The last outcome of a conversation, and what is known then: a review, or a failure. -/
def Settles (reply : Reply) (last : Progress) : Prop :=
  (∃ review, Reviews reply review ∧ last.HasReview review) ∨
    (¬ AsksTools reply ∧ (¬ ∃ review, Reviews reply review) ∧ last.HasFailed)

/-- **Where a course ends**: all outcomes but the last ask for tools, and so does the last one if all turns
are used up. -/
theorem Course.ends {tools : Toolset} {limits : Limits} {progress : Progress}
    {inquiries : List Inquiry} {walk : Walk} {last : Progress}
    (h : Course tools limits progress inquiries walk) (hlast : walk.last = .ok last)
    (htextual : TextualExchanges (inquiries.flatMap (·.exchanges)))
    (hturns : progress.turns ≤ limits.turns) (hreview : progress.review = none)
    (herror : progress.error = none) :
    last.turns = progress.turns + inquiries.length ∧
      (((∀ inquiry ∈ inquiries, AsksTools inquiry.outcome) ∧ last.turns = limits.turns ∧
          last.HasFailed) ∨
        ∃ before inquiry, inquiries = before ++ [inquiry] ∧
          (∀ inquiry ∈ before, AsksTools inquiry.outcome) ∧ Settles inquiry.outcome last) := by
  induction h with
  | overtime late =>
    cases hlast
    refine ⟨rfl, .inl ⟨by simp, le_antisymm hturns late, rfl, hreview, _, rfl, ?_⟩⟩
    exact Text.append_ne_empty (Text.append_ne_empty (by decide) _) _
  | broken => cases hlast
  | @failed progress inquiry error early asked means =>
    cases hlast
    have htext := asked.textual (by simpa [TextualExchanges] using htextual)
    refine ⟨rfl, .inr ⟨[], inquiry, rfl, by simp, .inr ⟨fun hasks => ?_, ?_, rfl, hreview,
      error, rfl, ?_⟩⟩⟩
    · obtain ⟨calls, hcalls⟩ := readReply_of_asksTools hasks
      rw [means] at hcalls
      cases hcalls
    · rintro ⟨review, hreviews⟩
      rw [readReply_of_reviews htext hreviews] at means
      cases means
    · rw [readReply_eq htext] at means
      exact verdict_failed_ne_empty asked.outcome_ne_empty (Except.ok.inj means)
  | @done progress inquiry review early asked means =>
    cases hlast
    have htext := asked.textual (by simpa [TextualExchanges] using htextual)
    exact ⟨rfl, .inr ⟨[], inquiry, rfl, by simp,
      .inl ⟨review, reviews_of_readReply htext means, rfl, rfl, herror⟩⟩⟩
  | @tools progress inquiry calls inquiries walk early asked means rest ih =>
    have hasks := asksTools_of_readReply means
    obtain ⟨hcount, hends⟩ := ih hlast (fun exchange hmem => htextual exchange
      (List.mem_append_right _ hmem)) early hreview herror
    refine ⟨?_, ?_⟩
    · rw [hcount, List.length_cons]
      simp only [Progress.answered, Progress.asking]
      omega
    rcases hends with ⟨hall, hfull, hfailed⟩ | ⟨before, settled, rfl, hall, hsettles⟩
    · exact .inl ⟨List.forall_mem_cons.mpr ⟨hasks, hall⟩, hfull, hfailed⟩
    · exact .inr ⟨inquiry :: before, settled, rfl, List.forall_mem_cons.mpr ⟨hasks, hall⟩, hsettles⟩

/-! ## Decisions -/

/-- The ending that a sequence of outcomes decides when there are at most so many turns. The first outcome
that does not ask for tools ends the conversation; if there is none in time, it fails. -/
structure Decided (outcomes : ℕ → Reply) (most : ℕ) (ending : Ending) : Prop where
  stops : ∀ k < most, (∀ i < k, AsksTools (outcomes i)) → ¬ AsksTools (outcomes k) →
    ending.turns = k + 1 ∧
      (∀ review, ending.status = .done ∧ ending.text = review ↔ Reviews (outcomes k) review) ∧
      (ending.status = .failed ↔ ¬ ∃ review, Reviews (outcomes k) review)
  runsOut : (∀ i < most, AsksTools (outcomes i)) → ending.turns = most ∧ ending.status = .failed
  done : ending.status = .done →
    ending.text ≠ "" ∧ Text.Trimmed ending.text.toList ∧ ending.error = none
  failed : ending.status = .failed →
    ending.text = "" ∧ ∃ error, ending.error = some error ∧ error ≠ ""

theorem Progress.HasFailed.ending {last : Progress} (h : last.HasFailed) :
    last.ending.status = .failed ∧ last.ending.text = "" ∧
      ∃ error, last.ending.error = some error ∧ error ≠ "" := by
  refine ⟨h.status, ?_, h.error⟩
  rw [Progress.ending, h.review]
  rfl

theorem Progress.HasReview.ending {last : Progress} {review : String} (h : last.HasReview review) :
    last.ending.status = .done ∧ last.ending.text = review ∧ last.ending.error = none := by
  refine ⟨h.status, ?_, h.error⟩
  rw [Progress.ending, h.review]
  rfl

theorem eq_of_stops {outcomes : ℕ → Reply} {j k : ℕ} (hj : ∀ i < j, AsksTools (outcomes i))
    (hk : ∀ i < k, AsksTools (outcomes i)) (hstop : ¬ AsksTools (outcomes j))
    (hstop' : ¬ AsksTools (outcomes k)) : j = k := by
  rcases Nat.lt_trichotomy j k with hlt | heq | hgt
  · exact absurd (hk j hlt) hstop
  · exact heq
  · exact absurd (hj k hgt) hstop'

section Stop

variable {outcomes : ℕ → Reply} {most k : ℕ} {last : Progress}

theorem Progress.HasReview.decided {review : String} (h : last.HasReview review) (hk : k < most)
    (hturns : last.turns = k + 1) (hbefore : ∀ i < k, AsksTools (outcomes i))
    (hreviews : Reviews (outcomes k) review) : Decided outcomes most last.ending := by
  obtain ⟨hstatus, htext, herror⟩ := h.ending
  have hnot := hreviews.not_asksTools
  refine ⟨fun j hj hall hstop => ?_, fun hall => absurd (hall k hk) hnot, fun _ => ?_, ?_⟩
  · obtain rfl := eq_of_stops hall hbefore hstop hnot
    refine ⟨hturns, fun other => ⟨?_, fun hother => ⟨hstatus, ?_⟩⟩, ?_⟩
    · rintro ⟨-, rfl⟩
      rw [htext]
      exact hreviews
    · rw [htext]
      exact hreviews.unique hother
    · rw [hstatus]
      exact ⟨fun h => Status.noConfusion h, fun h => absurd ⟨review, hreviews⟩ h⟩
  · rw [htext]
    obtain ⟨content, -, hspoken, rfl⟩ := hreviews
    exact ⟨(trim_ne_empty_iff _).mpr hspoken, Text.trimmed_trim _, herror⟩
  · rw [hstatus]
    exact fun h => Status.noConfusion h

theorem Progress.HasFailed.decided_of_stop (h : last.HasFailed) (hk : k < most)
    (hturns : last.turns = k + 1) (hbefore : ∀ i < k, AsksTools (outcomes i))
    (hnot : ¬ AsksTools (outcomes k)) (hnone : ¬ ∃ review, Reviews (outcomes k) review) :
    Decided outcomes most last.ending := by
  obtain ⟨hstatus, htext, herror⟩ := h.ending
  refine ⟨fun j hj hall hstop => ?_, fun hall => absurd (hall k hk) hnot, ?_,
    fun _ => ⟨htext, herror⟩⟩
  · obtain rfl := eq_of_stops hall hbefore hstop hnot
    refine ⟨hturns, fun other => ⟨?_, fun hother => absurd ⟨other, hother⟩ hnone⟩,
      fun _ => hnone, fun _ => hstatus⟩
    rintro ⟨hdone, -⟩
    rw [hstatus] at hdone
    cases hdone
  · rw [hstatus]
    exact fun h => Status.noConfusion h

theorem Settles.decided (h : Settles (outcomes k) last) (hk : k < most)
    (hturns : last.turns = k + 1) (hbefore : ∀ i < k, AsksTools (outcomes i)) :
    Decided outcomes most last.ending := by
  rcases h with ⟨review, hreviews, hhas⟩ | ⟨hnot, hnone, hfailed⟩
  · exact hhas.decided hk hturns hbefore hreviews
  · exact hfailed.decided_of_stop hk hturns hbefore hnot hnone

end Stop

theorem Progress.HasFailed.decided {outcomes : ℕ → Reply} {most : ℕ} {last : Progress}
    (h : last.HasFailed) (hturns : last.turns = most)
    (hall : ∀ i < most, AsksTools (outcomes i)) : Decided outcomes most last.ending := by
  obtain ⟨hstatus, htext, herror⟩ := h.ending
  refine ⟨fun k hk _ hstop => absurd (hall k hk) hstop, fun _ => ⟨hturns, hstatus⟩, ?_,
    fun _ => ⟨htext, herror⟩⟩
  rw [hstatus]
  exact fun h => Status.noConfusion h

theorem Course.decided {tools : Toolset} {limits : Limits} {system human : String}
    {inquiries : List Inquiry} {walk : Walk} {last : Progress} (hturns : 1 ≤ limits.turns)
    (h : Course tools limits (.start system human) inquiries walk) (hlast : walk.last = .ok last)
    (htextual : TextualExchanges (inquiries.flatMap (·.exchanges))) {outcomes : ℕ → Reply}
    (houtcomes : ∀ i inquiry, inquiries[i]? = some inquiry → outcomes i = inquiry.outcome) :
    Decided outcomes limits.turns.toNat last.ending := by
  have hstart : ((Progress.start system human).turns : ℤ) ≤ limits.turns := by
    simp only [Progress.start]
    omega
  obtain ⟨hcount, hends⟩ := h.ends hlast htextual hstart rfl rfl
  rw [Progress.start, Nat.zero_add] at hcount
  rcases hends with ⟨hall, hfull, hfailed⟩ | ⟨before, inquiry, rfl, hbefore, hsettles⟩
  · refine hfailed.decided (by omega) fun i hi => ?_
    have hlt : i < inquiries.length := by omega
    rw [houtcomes i _ (List.getElem?_eq_getElem hlt)]
    exact hall _ (List.getElem_mem hlt)
  · have hmost := h.length_inquiries_le hstart
    rw [List.length_append, List.length_singleton] at hcount hmost
    rw [Progress.start] at hmost
    have hlastOutcome : outcomes before.length = inquiry.outcome :=
      houtcomes _ _ (by rw [List.getElem?_append_right (Nat.le_refl _), Nat.sub_self]; rfl)
    rw [← hlastOutcome] at hsettles
    refine hsettles.decided (by omega) hcount fun i hi => ?_
    have hget : (before ++ [inquiry])[i]? = some before[i] := by
      rw [List.getElem?_append_left hi, List.getElem?_eq_getElem hi]
    rw [houtcomes i _ hget]
    exact hbefore _ (List.getElem_mem _)

theorem Course.retried {tools : Toolset} {limits : Limits} {progress : Progress}
    {inquiries : List Inquiry} {walk : Walk} (h : Course tools limits progress inquiries walk) :
    ∀ inquiry ∈ inquiries, ∃ messages, inquiry.About limits messages := by
  induction h with
  | overtime => simp
  | broken early asked | failed early asked | done early asked =>
    exact List.forall_mem_singleton.mpr ⟨_, asked⟩
  | tools early asked means rest ih => exact List.forall_mem_cons.mpr ⟨⟨_, asked⟩, ih⟩

/-- **The outcomes of its calls decide how a conversation ends**: whatever sequence they begin, the
conversation has the ending that this sequence decides. -/
theorem run_decided {σ : Type} (model : Talk.Model σ) (memory : σ) (time : Seconds)
    (system human : String) (tools : Toolset) (limits : Limits)
    (ends : (progress : Progress) → EndOrder progress.pending.length) (hturns : 1 ≤ limits.turns)
    (htextual : model.Textual) :
    let played := ((Loop.ofLimits tools limits ends).run system human).play model memory time
    ∃ (inquiries : List Inquiry) (ending : Ending),
      played.exchanges = inquiries.flatMap (·.exchanges) ∧
      (∀ inquiry ∈ inquiries, ∃ messages, inquiry.About limits messages) ∧
      played.value = .ok ending ∧
      ∀ outcomes : ℕ → Reply,
        (∀ i inquiry, inquiries[i]? = some inquiry → outcomes i = inquiry.outcome) →
          Decided outcomes limits.turns.toNat ending := by
  intro played
  obtain ⟨inquiries, hexchanges, hcourse⟩ :=
    course_walk tools limits ends model system human memory time (by omega)
  have hall := textualExchanges_play model memory time htextual
    ((Loop.ofLimits tools limits ends).walk system human)
  rw [hexchanges] at hall
  obtain ⟨last, hlast, -⟩ := hcourse.exists_last hall
  refine ⟨inquiries, last.ending, (exchanges_run model memory time system human _).trans hexchanges,
    hcourse.retried, ?_, fun outcomes houtcomes => hcourse.decided hturns hlast hall houtcomes⟩
  refine (value_run model memory time system human _).trans ?_
  rw [hlast]
  rfl

/-- A model that asks for a tool, is busy, and then writes a review with blanks around it. -/
def hesitant : Talk.Model ℕ := fun calls _ =>
  (calls + 1, .ofInt 1,
    match calls with
    | 0 => .ok (.message (.str "") [⟨"glob", .null, some "a"⟩] [.null])
    | 1 => .error "busy"
    | _ => .ok (.message (.arr [.obj [("type", .str "text"), ("text", .str " Fine. \n")]]) [] []))

theorem hesitant_textual : hesitant.Textual := by
  intro calls messages response hreply
  match calls, hreply with
  | 0, rfl => exact trivial
  | _ + 2, rfl =>
    intro block hblock _ value hvalue
    rw [List.mem_singleton.mp hblock] at hvalue
    exact ⟨" Fine. \n", (Option.some.inj hvalue).symm⟩

/-- A conversation in which a call is tried again. -/
theorem run_decided_hesitant :
    let limits : Limits := { turns := 2 }
    let loop := Loop.ofLimits { view := ⟨.empty, []⟩, root := .ofString "/", limit := 100 } limits
    let played := (loop.run "Review." "Here it is.").play hesitant 0 .zero
    1 ≤ limits.turns ∧ hesitant.Textual ∧
      ∃ (inquiries : List Inquiry) (ending : Ending),
        played.exchanges = inquiries.flatMap (·.exchanges) ∧
        (∀ inquiry ∈ inquiries, ∃ messages, inquiry.About limits messages) ∧
        played.value = .ok ending ∧
        ∀ outcomes : ℕ → Reply,
          (∀ i inquiry, inquiries[i]? = some inquiry → outcomes i = inquiry.outcome) →
            Decided outcomes 2 ending :=
  ⟨by decide, hesitant_textual,
    run_decided hesitant 0 _ _ _ _ _ _ (by decide) hesitant_textual⟩

end Lintel.Review
