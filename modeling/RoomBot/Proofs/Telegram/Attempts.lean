import RoomBot.Proofs.Telegram.Chats

/-!
# What the server sees of a notice

A notice is sent piece by piece, and what the server sees of it is a list of attempts, each of them a
request and the answer to it.  The list is made up of rounds, one for each piece that is tried
(`Round`): a piece is requested once, and once more if the first answer complains about a flood.
The next round begins when a piece has been accepted, and a refusal ends the course (`Course`).

The run of the loop is a course (`Line.exists_course`), and what a notice comes to is read off the
shape of a course: which pieces have arrived, which were requested again and for what reason, and
how it all ends (`Delivery`).
-/

namespace RoomBot.Telegram

/-! ## Rooms that are chats -/

/-- Nothing but digits, and at least one of them. -/
def IsDigits (cs : List Char) : Prop := cs ≠ [] ∧ ∀ c ∈ cs, c.isDigit = true

/-- A whole number in decimal, with a sign in front or without. -/
inductive Decimal : List Char → Int → Prop
  | plain {digits : List Char} : IsDigits digits →
      Decimal digits (Nat.ofDigitChars 10 digits 0 : Nat)
  | plus {digits : List Char} : IsDigits digits →
      Decimal ('+' :: digits) (Nat.ofDigitChars 10 digits 0 : Nat)
  | minus {digits : List Char} : IsDigits digits →
      Decimal ('-' :: digits) (-(Nat.ofDigitChars 10 digits 0 : Nat))

lemma not_isDigits_cons {c : Char} (hc : c.isDigit = false) (digits : List Char) :
    ¬ IsDigits (c :: digits) := by
  intro h
  have hdigit := h.2 c List.mem_cons_self
  rw [hc] at hdigit
  contradiction

lemma number_eq_some_iff {digits : List Char} {n m : Int} :
    (if digits.isEmpty || !digits.all Char.isDigit then none else some n) = some m ↔
      IsDigits digits ∧ n = m := by
  have hdigits : IsDigits digits ↔ (digits.isEmpty || !digits.all Char.isDigit) = false := by
    simp [IsDigits]
  rw [hdigits]
  cases digits.isEmpty || !digits.all Char.isDigit <;> simp

/-- A room is a chat if it is the number of one in decimal. -/
lemma chatOfRoom?_eq_some_iff {room : String} {chat : Int} :
    chatOfRoom? room = some chat ↔ Decimal room.toList chat ∧ IsChat chat := by
  simp only [chatOfRoom?, Option.filter_eq_some_iff, IsChat, Bool.and_eq_true, decide_eq_true_eq]
  refine and_congr_left fun _ => ?_
  generalize room.toList = cs
  split
  · rename_i digits
    simp only [Option.map_eq_some_iff, number_eq_some_iff]
    constructor
    · rintro ⟨n, ⟨hdigits, rfl⟩, rfl⟩
      exact .minus hdigits
    · intro h
      cases h with
      | plain hdigits => exact absurd hdigits (not_isDigits_cons rfl digits)
      | minus hdigits => exact ⟨_, ⟨hdigits, rfl⟩, rfl⟩
  · rename_i digits
    rw [number_eq_some_iff]
    constructor
    · rintro ⟨hdigits, rfl⟩
      exact .plus hdigits
    · intro h
      cases h with
      | plain hdigits => exact absurd hdigits (not_isDigits_cons rfl digits)
      | plus hdigits => exact ⟨hdigits, rfl⟩
  · rename_i hminus hplus
    rw [number_eq_some_iff]
    constructor
    · rintro ⟨hdigits, rfl⟩
      exact .plain hdigits
    · intro h
      cases h with
      | plain hdigits => exact ⟨hdigits, rfl⟩
      | plus hdigits => exact absurd rfl (hplus _)
      | minus hdigits => exact absurd rfl (hminus _)

/-! ## Attempts -/

/-- A request that has reached the server, for the piece of this number, and the answer to it. -/
structure Attempt where
  piece : Nat
  request : Request
  answer : Answer
deriving DecidableEq, Repr

namespace Answer

/-- The server complains about a flood. -/
def isFlood : Answer → Bool
  | flood _ => true
  | _ => false

/-- What comes of a request that is answered like this. -/
def outcome : Answer → Except Refusal Unit
  | accepted => .ok ()
  | flood seconds => .error (.flood seconds)
  | migrated chat => .error (.migrated chat)
  | rejected description => .error (.rejected description)

@[simp] lemma outcome_eq_ok_iff {answer : Answer} :
    answer.outcome = .ok () ↔ answer = .accepted := by
  cases answer <;> simp [outcome]

lemma exists_outcome_eq_error {answer : Answer} (h : answer ≠ .accepted) :
    ∃ refusal, answer.outcome = .error refusal := by
  cases answer with
  | accepted => contradiction
  | flood seconds => exact ⟨_, rfl⟩
  | migrated chat => exact ⟨_, rfl⟩
  | rejected description => exact ⟨_, rfl⟩

end Answer

namespace Line

/-- These attempts have been made on the line. Their answers are the next ones of the server, which
accepts everything after its last. -/
structure Made (before after : Line) (attempts : List Attempt) : Prop where
  isUp : after.isUp = before.isUp
  received : after.received = before.received ++ attempts.map Attempt.request
  answer : ∀ (i : Nat) (attempt : Attempt), attempts[i]? = some attempt →
    attempt.answer = before.script[i]?.getD .accepted
  script : after.script = before.script.drop attempts.length

variable {before middle after line : Line} {first second : List Attempt}

lemma Made.nothing (line : Line) : line.Made line [] where
  isUp := rfl
  received := by simp
  answer i attempt h := by simp at h
  script := rfl

lemma Made.append (h : before.Made middle first) (h' : middle.Made after second) :
    before.Made after (first ++ second) where
  isUp := h'.isUp.trans h.isUp
  received := by rw [h'.received, h.received, List.append_assoc, List.map_append]
  answer i attempt hi := by
    rcases Nat.lt_or_ge i first.length with hlt | hge
    · rw [List.getElem?_append_left hlt] at hi
      exact h.answer i attempt hi
    · rw [List.getElem?_append_right hge] at hi
      rw [h'.answer _ attempt hi, h.script, List.getElem?_drop, Nat.add_sub_cancel' hge]
  script := by rw [h'.script, h.script, List.drop_drop, List.length_append]

lemma post_of_down (hdown : line.isUp = false) (request : Request) :
    line.post request = (.error .unreachable, line) := by
  simp [post, hdown]

lemma exists_post (hup : line.isUp = true) (request : Request) (number : Nat) :
    ∃ answer after, line.post request = (answer.outcome, after) ∧
      line.Made after [⟨number, request, answer⟩] := by
  refine ⟨line.script.head?.getD .accepted,
    { line with script := line.script.tail, received := line.received ++ [request] }, ?_, ?_⟩
  · rw [post, if_pos hup]
    cases line.script.head?.getD .accepted <;> rfl
  · refine ⟨rfl, rfl, fun i attempt hi => ?_, by simp⟩
    obtain ⟨rfl, rfl⟩ : i = 0 ∧ _ = attempt := by simpa [List.getElem?_singleton] using hi
    rw [List.head?_eq_getElem?]

end Line

/-! ## One piece -/

/-- The attempts that are made for one piece, and what they come to. -/
inductive Round (number : Nat) (request : Request) : List Attempt → Except Refusal Unit → Prop
  | once {answer : Answer} : answer.isFlood = false →
      Round number request [⟨number, request, answer⟩] answer.outcome
  | again (seconds : Nat) (answer : Answer) :
      Round number request [⟨number, request, .flood seconds⟩, ⟨number, request, answer⟩]
        answer.outcome

lemma Line.exists_round {line : Line} (hup : line.isUp = true) (request : Request)
    (number : Nat) :
    ∃ attempts, line.Made (line.deliver request).2 attempts ∧
      Round number request attempts (line.deliver request).1 := by
  obtain ⟨answer, after, hpost, hmade⟩ := exists_post hup request number
  simp only [deliver, hpost]
  cases answer with
  | flood seconds =>
    obtain ⟨other, last, hagain, hmore⟩ := exists_post (hmade.isUp.trans hup) request number
    simp only [Answer.outcome, hagain]
    exact ⟨_, hmade.append hmore, .again seconds other⟩
  | accepted => exact ⟨_, hmade, .once rfl⟩
  | migrated chat => exact ⟨_, hmade, .once rfl⟩
  | rejected description => exact ⟨_, hmade, .once rfl⟩

/-! ## All pieces -/

/-- What the bot makes of a refusal. -/
def Refusal.failure (refusal : Refusal) : Failure :=
  .external s!"telegram error: {refusal.message}"

/-- The attempts that are made for some texts, of which the first has this number, and what comes of
them. -/
inductive Course (isUp : Bool) (chat : Int) :
    Nat → List String → List Attempt → Except Failure Unit → Prop
  | done (number : Nat) : Course isUp chat number [] [] (.ok ())
  | taken {number : Nat} {text : String} {texts : List String} {first others : List Attempt}
      {result : Except Failure Unit} : Round number ⟨chat, text, true⟩ first (.ok ()) →
      Course isUp chat (number + 1) texts others result →
      Course isUp chat number (text :: texts) (first ++ others) result
  | refused {number : Nat} {text : String} (texts : List String) {attempts : List Attempt}
      {refusal : Refusal} : Round number ⟨chat, text, true⟩ attempts (.error refusal) →
      Course isUp chat number (text :: texts) attempts (.error refusal.failure)
  | cutOff (number : Nat) (text : String) (texts : List String) : isUp = false →
      Course isUp chat number (text :: texts) [] (.error Refusal.unreachable.failure)

/-- Whatever the server answers, sending some texts is a course. -/
theorem Line.exists_course (chat : Int) (texts : List String) (line : Line) (number : Nat) :
    ∃ attempts, line.Made (line.deliverAll chat texts).2 attempts ∧
      Course line.isUp chat number texts attempts
        ((line.deliverAll chat texts).1.mapError Refusal.failure) := by
  induction texts generalizing line number with
  | nil => exact ⟨[], .nothing line, .done number⟩
  | cons text texts ih =>
    cases hup : line.isUp with
    | false =>
      simp only [deliverAll, deliver, post_of_down hup]
      exact ⟨[], .nothing line, .cutOff number text texts rfl⟩
    | true =>
      obtain ⟨first, hmade, hround⟩ := exists_round hup ⟨chat, text, true⟩ number
      unfold deliverAll
      split
      · rename_i after hdelivered
        rw [hdelivered] at hmade hround
        obtain ⟨others, hothers, hcourse⟩ := ih after (number + 1)
        rw [hmade.isUp.trans hup] at hcourse
        exact ⟨first ++ others, hmade.append hothers, .taken hround hcourse⟩
      · rename_i refusal after hdelivered
        rw [hdelivered] at hmade hround
        exact ⟨first, hmade, .refused texts hround⟩

/-! ## What has arrived -/

/-- The attempts that were accepted. -/
def accepted (attempts : List Attempt) : List Attempt :=
  attempts.filter fun attempt => attempt.answer = .accepted

section Read

variable {isUp : Bool} {chat : Int} {number : Nat} {request : Request} {texts : List String}
variable {attempts first others : List Attempt} {outcome : Except Refusal Unit}
variable {result : Except Failure Unit}

lemma Round.piece_eq (h : Round number request attempts outcome) :
    ∀ attempt ∈ attempts, attempt.piece = number ∧ attempt.request = request := by
  cases h <;> simp

lemma accepted_singleton (number : Nat) (request : Request) (answer : Answer) :
    (answer.outcome = .ok () ∧
        accepted [⟨number, request, answer⟩] = [⟨number, request, .accepted⟩]) ∨
      ∃ refusal, answer.outcome = .error refusal ∧ accepted [⟨number, request, answer⟩] = [] := by
  by_cases hanswer : answer = .accepted
  · exact .inl ⟨Answer.outcome_eq_ok_iff.2 hanswer, by simp [accepted, hanswer]⟩
  · obtain ⟨refusal, hrefusal⟩ := Answer.exists_outcome_eq_error hanswer
    exact .inr ⟨refusal, hrefusal, by simp [accepted, hanswer]⟩

/-- A round ends with its piece accepted, or nothing has been accepted in it. -/
lemma Round.accepted_cases (h : Round number request attempts outcome) :
    (outcome = .ok () ∧ accepted attempts = [⟨number, request, .accepted⟩]) ∨
      ∃ refusal, outcome = .error refusal ∧ accepted attempts = [] := by
  cases h with
  | once _ => exact accepted_singleton number request _
  | again seconds answer => exact accepted_singleton number request answer

namespace Course

lemma carries (h : Course isUp chat number texts attempts result) :
    ∀ attempt ∈ attempts, number ≤ attempt.piece ∧
      texts[attempt.piece - number]? = some attempt.request.text ∧
      attempt.request.chat = chat ∧ attempt.request.silent = true := by
  induction h with
  | done number => simp
  | @taken number text texts first others result hround _ ih =>
    intro attempt hattempt
    rcases List.mem_append.1 hattempt with hmem | hmem
    · obtain ⟨hpiece, hrequest⟩ := hround.piece_eq attempt hmem
      simp [hpiece, hrequest]
    · obtain ⟨hle, htext, haddressed⟩ := ih attempt hmem
      refine ⟨Nat.le_of_succ_le hle, ?_, haddressed⟩
      rw [← htext, show attempt.piece - number = attempt.piece - (number + 1) + 1 by omega,
        List.getElem?_cons_succ]
  | refused texts hround =>
    intro attempt hmem
    obtain ⟨hpiece, hrequest⟩ := hround.piece_eq attempt hmem
    simp [hpiece, hrequest]
  | cutOff => simp

/-- The pieces that have arrived are the first ones, each of them once, and all of them have if
nothing went wrong. -/
lemma exists_accepted (h : Course isUp chat number texts attempts result) :
    ∃ count, (accepted attempts).map Attempt.piece = List.range' number count ∧
      (accepted attempts).map (fun attempt => attempt.request.text) = texts.take count ∧
      (result = .ok () ↔ texts.take count = texts) := by
  induction h with
  | done number => exact ⟨0, rfl, rfl, by simp⟩
  | @taken number text texts first others result hround _ ih =>
    obtain ⟨count, hpieces, htexts, hresult⟩ := ih
    rcases hround.accepted_cases with ⟨-, hfirst⟩ | ⟨refusal, hrefused, -⟩
    · simp only [accepted] at hfirst hpieces htexts ⊢
      refine ⟨count + 1, ?_, ?_, ?_⟩
      · rw [List.filter_append, hfirst, List.map_append, hpieces, List.range'_succ]
        rfl
      · rw [List.filter_append, hfirst, List.map_append, htexts, List.take_succ_cons]
        rfl
      · rw [hresult, List.take_succ_cons, List.cons.injEq, eq_self, true_and]
    · contradiction
  | refused texts hround =>
    rcases hround.accepted_cases with ⟨hdone, -⟩ | ⟨refusal, -, hnone⟩
    · contradiction
    · exact ⟨0, by simp [hnone], by simp [hnone], by simp⟩
  | cutOff => exact ⟨0, by simp [accepted], by simp [accepted], by simp⟩

end Course

/-! ## What was requested again -/

/-- A piece is requested again only right after a complaint about a flood. -/
def RepeatsOnFlood (attempts : List Attempt) : Prop :=
  ∀ (i j : Nat) (one other : Attempt), i < j → attempts[i]? = some one →
    attempts[j]? = some other → other.piece = one.piece → j = i + 1 ∧ one.answer.isFlood = true

lemma RepeatsOnFlood.append (hfirst : RepeatsOnFlood first) (hothers : RepeatsOnFlood others)
    (hapart : ∀ one ∈ first, ∀ other ∈ others, other.piece ≠ one.piece) :
    RepeatsOnFlood (first ++ others) := by
  intro i j one other hlt hi hj hpiece
  rcases Nat.lt_or_ge j first.length with hfront | hback
  · rw [List.getElem?_append_left (Nat.lt_trans hlt hfront)] at hi
    rw [List.getElem?_append_left hfront] at hj
    exact hfirst i j one other hlt hi hj hpiece
  · rw [List.getElem?_append_right hback] at hj
    rcases Nat.lt_or_ge i first.length with hfront | hbehind
    · rw [List.getElem?_append_left hfront] at hi
      exact absurd hpiece
        (hapart one (List.mem_of_getElem? hi) other (List.mem_of_getElem? hj))
    · rw [List.getElem?_append_right hbehind] at hi
      obtain ⟨hnext, hflood⟩ := hothers _ _ one other (by omega) hi hj hpiece
      exact ⟨by omega, hflood⟩

lemma Round.repeatsOnFlood (h : Round number request attempts outcome) :
    RepeatsOnFlood attempts := by
  intro i j one other hlt hi hj _
  cases h with
  | once _ =>
    obtain ⟨hlast, -⟩ := List.getElem?_eq_some_iff.1 hj
    rw [List.length_singleton] at hlast
    omega
  | again seconds answer =>
    obtain ⟨hlast, -⟩ := List.getElem?_eq_some_iff.1 hj
    obtain ⟨rfl, rfl⟩ : i = 0 ∧ j = 1 := by
      simp only [List.length_cons, List.length_nil] at hlast
      omega
    rw [← Option.some.inj hi]
    exact ⟨rfl, rfl⟩

/-- How often a piece has been requested. -/
def requests (piece : Nat) (attempts : List Attempt) : Nat :=
  attempts.countP fun attempt => attempt.piece = piece

lemma requests_append (piece : Nat) (first others : List Attempt) :
    requests piece (first ++ others) = requests piece first + requests piece others :=
  List.countP_append

lemma requests_eq_zero {piece : Nat} (h : ∀ attempt ∈ attempts, attempt.piece ≠ piece) :
    requests piece attempts = 0 :=
  List.countP_eq_zero.2 fun attempt hmem => by simpa using h attempt hmem

lemma Round.requests_le (h : Round number request attempts outcome) (piece : Nat) :
    requests piece attempts ≤ 2 := by
  have hlength : attempts.length ≤ 2 := by cases h <;> simp
  exact Nat.le_trans List.countP_le_length hlength

namespace Course

lemma piece_ne {request : Request} (hround : Round number request first outcome)
    (h : Course isUp chat (number + 1) texts others result) :
    ∀ one ∈ first, ∀ other ∈ others, other.piece ≠ one.piece := by
  intro one hone other hother
  rw [(hround.piece_eq one hone).1]
  exact Nat.ne_of_gt (h.carries other hother).1

lemma repeatsOnFlood (h : Course isUp chat number texts attempts result) :
    RepeatsOnFlood attempts := by
  induction h with
  | done number => intro i j one other _ hi; simp at hi
  | taken hround hcourse ih => exact hround.repeatsOnFlood.append ih (hcourse.piece_ne hround)
  | refused texts hround => exact hround.repeatsOnFlood
  | cutOff => intro i j one other _ hi; simp at hi

lemma requests_le (h : Course isUp chat number texts attempts result) (piece : Nat) :
    requests piece attempts ≤ 2 := by
  induction h with
  | done number => simp [requests]
  | @taken number text texts first others result hround hcourse ih =>
    rw [requests_append]
    by_cases hpiece : piece = number
    · have hnone : requests piece others = 0 := requests_eq_zero fun other hother => by
        rw [hpiece]
        exact Nat.ne_of_gt (hcourse.carries other hother).1
      rw [hnone]
      exact hround.requests_le piece
    · have hnone : requests piece first = 0 := requests_eq_zero fun one hone => by
        rw [(hround.piece_eq one hone).1]
        exact Ne.symm hpiece
      rw [hnone, Nat.zero_add]
      exact ih
  | refused texts hround => exact hround.requests_le piece
  | cutOff => simp [requests]

end Course

/-! ## How it ends -/

/-- An attempt that was not accepted is followed by another request for its piece, or by nothing at
all, and then it is what has come of the notice. A first complaint about a flood does not end it. -/
def EndsOnRefusal (attempts : List Attempt) (result : Except Failure Unit) : Prop :=
  ∀ (i : Nat) (one : Attempt), attempts[i]? = some one → one.answer ≠ .accepted →
    (∃ next, attempts[i + 1]? = some next ∧ next.piece = one.piece) ∨
    i + 1 = attempts.length ∧
      (∃ refusal, one.answer.outcome = .error refusal ∧ result = .error refusal.failure) ∧
      (one.answer.isFlood = true →
        ∃ j earlier, j < i ∧ attempts[j]? = some earlier ∧ earlier.piece = one.piece)

lemma Round.ends (h : Round number request attempts outcome) {i : Nat} {one : Attempt}
    (hi : attempts[i]? = some one) :
    (∃ next, attempts[i + 1]? = some next ∧ next.piece = one.piece) ∨
    i + 1 = attempts.length ∧ outcome = one.answer.outcome ∧
      (one.answer.isFlood = true →
        ∃ j earlier, j < i ∧ attempts[j]? = some earlier ∧ earlier.piece = one.piece) := by
  obtain ⟨hlast, -⟩ := List.getElem?_eq_some_iff.1 hi
  cases h with
  | @once answer hanswer =>
    obtain rfl : i = 0 := by simpa using hlast
    obtain rfl := Option.some.inj hi
    refine .inr ⟨rfl, rfl, fun hflood => ?_⟩
    rw [hanswer] at hflood
    contradiction
  | again seconds answer =>
    simp only [List.length_cons, List.length_nil] at hlast
    obtain rfl | rfl : i = 0 ∨ i = 1 := by omega
    · obtain rfl := Option.some.inj hi
      exact .inl ⟨_, rfl, rfl⟩
    · obtain rfl := Option.some.inj hi
      exact .inr ⟨rfl, rfl, fun _ => ⟨0, _, Nat.zero_lt_one, rfl, rfl⟩⟩

lemma Round.exists_getLast? (h : Round number request attempts outcome) :
    ∃ last, attempts.getLast? = some last ∧ last.answer.outcome = outcome := by
  cases h with
  | once _ => exact ⟨_, rfl, rfl⟩
  | again seconds answer => exact ⟨_, rfl, rfl⟩

namespace Course

lemma endsOnRefusal (h : Course isUp chat number texts attempts result) :
    EndsOnRefusal attempts result := by
  induction h with
  | done number => intro i one hi; simp at hi
  | @taken number text texts first others result hround _ ih =>
    intro i one hi hone
    rcases Nat.lt_or_ge i first.length with hfront | hback
    · rw [List.getElem?_append_left hfront] at hi
      rcases hround.ends hi with ⟨next, hnext, hpiece⟩ | ⟨-, hdone, -⟩
      · obtain ⟨hlt, -⟩ := List.getElem?_eq_some_iff.1 hnext
        exact .inl ⟨next, by rw [List.getElem?_append_left hlt, hnext], hpiece⟩
      · exact absurd (Answer.outcome_eq_ok_iff.1 hdone.symm) hone
    · rw [List.getElem?_append_right hback] at hi
      rcases ih _ one hi hone with ⟨next, hnext, hpiece⟩ | ⟨hlast, hrefused, hearlier⟩
      · refine .inl ⟨next, ?_, hpiece⟩
        rw [List.getElem?_append_right (by omega), ← hnext]
        congr 1
        omega
      · refine .inr ⟨by rw [List.length_append]; omega, hrefused, fun hflood => ?_⟩
        obtain ⟨j, earlier, hlt, hj, hpiece⟩ := hearlier hflood
        refine ⟨first.length + j, earlier, by omega, ?_, hpiece⟩
        rw [List.getElem?_append_right (Nat.le_add_right _ _), Nat.add_sub_cancel_left, hj]
  | @refused number text texts attempts refusal hround =>
    intro i one hi hone
    rcases hround.ends hi with hnext | ⟨hlast, hrefused, hearlier⟩
    · exact .inl hnext
    · exact .inr ⟨hlast, ⟨refusal, hrefused.symm, rfl⟩, hearlier⟩
  | cutOff => intro i one hi; simp at hi

/-- What goes wrong is the answer to the last request, if the server can be reached. -/
lemma exists_refusal (h : Course isUp chat number texts attempts result) {failure : Failure}
    (hfailed : result = .error failure) : ∃ refusal, failure = refusal.failure ∧
      (isUp = false ∧ refusal = .unreachable ∨
        ∃ last, attempts.getLast? = some last ∧ last.answer.outcome = .error refusal) := by
  induction h with
  | done number => contradiction
  | @taken number text texts first others result _ _ ih =>
    obtain ⟨refusal, hrefusal, hdown | ⟨last, hlast, hanswer⟩⟩ := ih hfailed
    · exact ⟨refusal, hrefusal, .inl hdown⟩
    · refine ⟨refusal, hrefusal, .inr ⟨last, ?_, hanswer⟩⟩
      rw [List.getLast?_append, hlast, Option.some_or]
  | refused texts hround =>
    exact ⟨_, (Except.error.inj hfailed).symm, .inr hround.exists_getLast?⟩
  | cutOff _ _ _ hdown => exact ⟨_, (Except.error.inj hfailed).symm, .inl ⟨hdown, rfl⟩⟩

end Course

end Read

/-! ## Notices -/

/-- These attempts have sent the pieces of a notice to a chat as far as the server has let them, and
this is what has come of it. -/
structure Delivery (isUp : Bool) (chat : Int) (pieces : List String) (attempts : List Attempt)
    (result : Except Failure Unit) : Prop where
  /-- Every request is a silent message to the chat with one of the pieces. -/
  carries : ∀ attempt ∈ attempts, attempt.request.chat = chat ∧ attempt.request.silent = true ∧
    pieces[attempt.piece]? = some attempt.request.text
  /-- The pieces that have arrived are the first ones, each of them once and in their order. The
  notice has been sent if these are all. -/
  arrived : ∃ count, (accepted attempts).map Attempt.piece = List.range count ∧
    (accepted attempts).map (fun attempt => attempt.request.text) = pieces.take count ∧
    (result = .ok () ↔ pieces.take count = pieces)
  twice : ∀ piece, requests piece attempts ≤ 2
  repeats : RepeatsOnFlood attempts
  ends : EndsOnRefusal attempts result
  failed : ∀ failure, result = .error failure → ∃ refusal, failure = refusal.failure ∧
    (isUp = false ∧ refusal = .unreachable ∨
      ∃ last, attempts.getLast? = some last ∧ last.answer.outcome = .error refusal)

lemma Course.delivery {isUp : Bool} {chat : Int} {pieces : List String}
    {attempts : List Attempt} {result : Except Failure Unit}
    (h : Course isUp chat 0 pieces attempts result) :
    Delivery isUp chat pieces attempts result where
  carries attempt hattempt := by
    obtain ⟨-, htext, hchat, hsilent⟩ := h.carries attempt hattempt
    exact ⟨hchat, hsilent, htext⟩
  arrived := by
    obtain ⟨count, hpieces, htexts, hresult⟩ := h.exists_accepted
    exact ⟨count, by rw [hpieces, List.range_eq_range'], htexts, hresult⟩
  twice := h.requests_le
  repeats := h.repeatsOnFlood
  ends := h.endsOnRefusal
  failed _ hfailed := h.exists_refusal hfailed

lemma sendNotice_eq {room : String} {chat : Int} (h : chatOfRoom? room = some chat)
    (line : Line) (text : String) : sendNotice line room text =
      ((line.deliverAll chat (Text.pieces text messageLimit)).1.mapError Refusal.failure,
        (line.deliverAll chat (Text.pieces text messageLimit)).2) := by
  simp only [sendNotice, h]
  generalize line.deliverAll chat (Text.pieces text messageLimit) = delivered
  obtain ⟨outcome, after⟩ := delivered
  cases outcome <;> rfl

/-- A notice for the room of a chat is delivered as far as the server lets it, whatever the room, the
text and the answers of the server. For a room that is no chat nothing is sent. -/
theorem notice_delivered (line : Line) (room text : String) :
    (∀ chat, Decimal room.toList chat → IsChat chat →
      ∃ attempts, line.Made (sendNotice line room text).2 attempts ∧
        Delivery line.isUp chat (Text.pieces text messageLimit) attempts
          (sendNotice line room text).1) ∧
    ((∀ chat, Decimal room.toList chat → ¬ IsChat chat) →
      sendNotice line room text =
        (.error (.external s!"not a telegram chat id: {room}"), line)) := by
  constructor
  · intro chat hroom hchat
    obtain ⟨attempts, hmade, hcourse⟩ :=
      line.exists_course chat (Text.pieces text messageLimit) 0
    rw [sendNotice_eq (chatOfRoom?_eq_some_iff.2 ⟨hroom, hchat⟩)]
    exact ⟨attempts, hmade, hcourse.delivery⟩
  · intro hnone
    have hroom : chatOfRoom? room = none := by
      rw [Option.eq_none_iff_forall_ne_some]
      intro chat hchat
      obtain ⟨hnumber, hrange⟩ := chatOfRoom?_eq_some_iff.1 hchat
      exact hnone chat hnumber hrange
    simp only [sendNotice, hroom]

/-- A second complaint about a flood is not met with a third request. -/
theorem notice_delivered_twoFloods :
    let line : Line := ⟨true, [.flood 0, .flood 7], []⟩
    Decimal "-100".toList (-100) ∧ IsChat (-100) ∧
      (∃ attempts, line.Made (sendNotice line "-100" "Pong!").2 attempts ∧
        Delivery true (-100) ["Pong!"] attempts (sendNotice line "-100" "Pong!").1 ∧
        attempts.length = 2) ∧
      (∀ chat, Decimal "!a:hs".toList chat → ¬ IsChat chat) ∧
      sendNotice line "!a:hs" "Pong!" =
        (.error (.external "not a telegram chat id: !a:hs"), line) := by
  intro line
  obtain ⟨hroom, hchat⟩ : Decimal "-100".toList (-100) ∧ IsChat (-100) :=
    chatOfRoom?_eq_some_iff.1 (by decide +kernel)
  have hnone : ∀ chat, Decimal "!a:hs".toList chat → ¬ IsChat chat := by
    intro chat hnumber hrange
    have hsome := chatOfRoom?_eq_some_iff.2 ⟨hnumber, hrange⟩
    rw [show chatOfRoom? "!a:hs" = none by decide +kernel] at hsome
    contradiction
  refine ⟨hroom, hchat, ?_, hnone, (notice_delivered line "!a:hs" "Pong!").2 hnone⟩
  obtain ⟨attempts, hmade, hdelivery⟩ := (notice_delivered line "-100" "Pong!").1 (-100) hroom hchat
  rw [show Text.pieces "Pong!" messageLimit = ["Pong!"] by decide +kernel] at hdelivery
  refine ⟨attempts, hmade, hdelivery, ?_⟩
  have hreceived := congrArg List.length hmade.received
  rw [show (sendNotice line "-100" "Pong!").2.received.length = 2 by decide +kernel] at hreceived
  simpa [line] using hreceived.symm

end RoomBot.Telegram
