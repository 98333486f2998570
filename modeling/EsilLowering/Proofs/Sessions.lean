import EsilLowering.Proofs.History
import EsilLowering.Session

/-! # Lowerers of a session

A session keeps its lowerers apart. What it answers for a name is what one lowerer by itself answers: the
one that the last request to make a lowerer under the name came to, from what that request says and what
the registry held just then, after the expressions that came for the name since. Requests for other names,
expressions lowered alone and changes of the registry have no part in it. -/

namespace EsilLowering

/-- What a lowerer can be asked. -/
inductive Question where
  | lower (expression : String)
  | inspect
  deriving DecidableEq

/-- A question as a request for the lowerer under a name. -/
def Question.request (id : String) : Question → Request
  | lower expression => .lower id expression
  | inspect => .inspect id

/-- The expression that a question gives the lowerer. -/
def Question.expression? : Question → Option String
  | lower expression => some expression
  | inspect => none

namespace Lowerer

/-- A lowerer after a question. -/
def asked (lowerer : Lowerer) (question : Question) : Lowerer := lowerer.lowered question.expression?.toList

theorem asked_lower (lowerer : Lowerer) (expression : String) :
    lowerer.asked (.lower expression) = (lowerer.lower expression).lowerer := rfl

theorem asked_inspect (lowerer : Lowerer) : lowerer.asked .inspect = lowerer := rfl

/-- What a lowerer answers to a question. -/
def reply (lowerer : Lowerer) : Question → Reply
  | .lower expression => .lowered (lowerer.lower expression)
  | .inspect => .inspected lowerer

/-- What a lowerer by itself answers to questions in turn. -/
def replies (lowerer : Lowerer) : List Question → List Reply
  | [] => []
  | question :: rest => lowerer.reply question :: (lowerer.asked question).replies rest

theorem lowered_append (lowerer : Lowerer) (before rest : List String) :
    lowerer.lowered (before ++ rest) = (lowerer.lowered before).lowered rest :=
  List.foldl_append

end Lowerer

namespace Request

/-- What a request asks of the lowerer under a name. -/
def question? (id : String) : Request → Option Question
  | lower other expression => if other = id then some (.lower expression) else none
  | inspect other => if other = id then some .inspect else none
  | _ => none

/-- Whether a request is for a new lowerer under a name. -/
def Creates (id : String) : Request → Prop
  | create other _ => other = id
  | configure other _ => other = id
  | _ => False

/-- The fresh lowerer that a request puts under a name, given what the registry holds. -/
def made? (registry : Registry) (id : String) : Request → Option Lowerer
  | create other outline => if other = id then (outline.lowerer registry).toOption else none
  | configure other source => if other = id then (source.settings.lowerer registry).toOption else none
  | _ => none

/-- The expressions among requests that came for a name. -/
def expressionsFor (id : String) (requests : List Request) : List String :=
  (requests.filterMap (question? id)).filterMap Question.expression?

theorem question?_eq_some {request : Request} {id : String} {question : Question} :
    request.question? id = some question ↔ request = question.request id := by
  cases request <;> cases question <;> simp [question?, Question.request]

end Request

theorem Lowerer.lowered_question (lowerer : Lowerer) (id : String) (request : Request) (rest : List Request) :
    ((request.question? id).elim lowerer lowerer.asked).lowered (Request.expressionsFor id rest) =
      lowerer.lowered (Request.expressionsFor id (request :: rest)) := by
  unfold Request.expressionsFor
  cases asks : request.question? id with
  | none => rw [List.filterMap_cons_none asks, Option.elim_none]
  | some question =>
    rw [List.filterMap_cons_some asks, Option.elim_some, asked, ← lowered_append]
    cases question <;> rfl

namespace Session

/-- A session after some requests. -/
def after (session : Session) (requests : List Request) : Session :=
  requests.foldl (fun session request => (session.answer request).1) session

/-- The last lowerer made under a name while requests are answered, fresh, and the expressions that came
for it since. -/
def latest? (session : Session) (id : String) : List Request → Option (Lowerer × List String)
  | [] => none
  | request :: rest =>
    ((session.answer request).1.latest? id rest).or
      ((request.made? session.registry id).map fun fresh => (fresh, Request.expressionsFor id rest))

/-- The replies to the questions for a name. -/
def repliesTo (session : Session) (id : String) (requests : List Request) : List Reply :=
  ((requests.zip (session.answerAll requests)).filter fun pair => (pair.1.question? id).isSome).map Prod.snd

/-! ### One request -/

section
variable {session : Session} {request : Request} {id : String}

theorem lowerers_withRegistry (session : Session) (change : Except Fault Registry) :
    (session.withRegistry change).1.lowerers = session.lowerers := by
  cases change <;> rfl

/-- A request leaves under a name the lowerer that it makes there, or else the one there was, after what
it asks of it. -/
theorem get?_answer (session : Session) (request : Request) (id : String) :
    (session.answer request).1.lowerers.get? id =
      (request.made? session.registry id).or
        ((session.lowerers.get? id).map fun lowerer => (request.question? id).elim lowerer lowerer.asked) := by
  cases request with
  | create other outline =>
    cases made : outline.lowerer session.registry with
    | error fault => simp [answer, made, Request.made?, Request.question?, Except.toOption]
    | ok lowerer =>
      by_cases same : other = id <;>
        simp [answer, made, Request.made?, Request.question?, Except.toOption, Table.get?_insert, same]
  | configure other source =>
    cases made : source.settings.lowerer session.registry with
    | error fault => simp [answer, made, Request.made?, Request.question?, Except.toOption]
    | ok lowerer =>
      by_cases same : other = id <;>
        simp [answer, made, Request.made?, Request.question?, Except.toOption, Table.get?_insert, same]
  | lower other expression =>
    by_cases same : other = id
    · subst same
      cases found : session.lowerers.get? other with
      | none => simp [answer, found, Request.made?]
      | some lowerer =>
        simp [answer, found, Request.made?, Request.question?, Table.get?_insert, Lowerer.asked_lower]
    · cases found : session.lowerers.get? other <;>
        simp [answer, found, Request.made?, Request.question?, Table.get?_insert, same]
  | inspect other =>
    have stays : (session.answer (.inspect other)).1 = session := by
      cases found : session.lowerers.get? other <;> simp [answer, found]
    rw [stays]
    by_cases same : other = id <;> simp [Request.made?, Request.question?, same, Lowerer.asked_inspect]
  | register outline replace =>
    rw [answer, lowerers_withRegistry]
    simp [Request.made?, Request.question?]
  | unregister name =>
    rw [answer, lowerers_withRegistry]
    simp [Request.made?, Request.question?]
  | lowerAlone | names | profile | query => simp [answer, Request.made?, Request.question?]

/-- What a session answers to a question for a name is what the lowerer under it answers. -/
theorem answer_question (session : Session) (id : String) (question : Question) :
    (session.answer (question.request id)).2 =
      (session.lowerers.get? id).elim (.noLowerer id) fun lowerer => lowerer.reply question := by
  cases question <;> cases found : session.lowerers.get? id <;>
    simp [Question.request, answer, found, Lowerer.reply]

/-- A request for a new lowerer that comes to none leaves the session as it was. -/
theorem answer_of_unmade (creates : request.Creates id) (unmade : request.made? session.registry id = none) :
    (session.answer request).1 = session := by
  cases request with
  | create other outline =>
    obtain rfl : other = id := creates
    cases made : outline.lowerer session.registry with
    | error fault => simp [answer, made]
    | ok lowerer => simp [Request.made?, made, Except.toOption] at unmade
  | configure other source =>
    obtain rfl : other = id := creates
    cases made : source.settings.lowerer session.registry with
    | error fault => simp [answer, made]
    | ok lowerer => simp [Request.made?, made, Except.toOption] at unmade
  | _ => exact creates.elim

end

/-! ### Any number of requests -/

section
variable {session : Session} {id : String} {requests : List Request}

theorem after_cons (session : Session) (request : Request) (rest : List Request) :
    session.after (request :: rest) = (session.answer request).1.after rest := rfl

/-- What is under a name after some requests is the last lowerer made there, or else the one there was at
the start, after the expressions that came for the name since. -/
theorem get?_after (session : Session) (id : String) (requests : List Request) :
    (session.after requests).lowerers.get? id =
      ((session.latest? id requests).map fun latest => latest.1.lowered latest.2).or
        ((session.lowerers.get? id).map (·.lowered (Request.expressionsFor id requests))) := by
  induction requests generalizing session with
  | nil =>
    cases held : session.lowerers.get? id <;>
      simp [after, latest?, held, Request.expressionsFor, Lowerer.lowered]
  | cons request rest ih =>
    rw [after_cons, ih, get?_answer, latest?]
    cases later : (session.answer request).1.latest? id rest with
    | some latest => simp
    | none =>
      cases made : request.made? session.registry id with
      | some fresh => simp
      | none =>
        cases found : session.lowerers.get? id with
        | none => simp
        | some lowerer => simp [Lowerer.lowered_question]

/-- The reply to a request in a list of requests is what the session answers once it has answered those
before it. -/
theorem getElem?_answerAll (session : Session) (before : List Request) (request : Request) (later : List Request) :
    (session.answerAll (before ++ request :: later))[before.length]? =
      some ((session.after before).answer request).2 := by
  induction before generalizing session with
  | nil => simp [answerAll, after]
  | cons first rest ih => simpa [answerAll, after_cons] using ih (session.answer first).1

theorem repliesTo_cons (session : Session) (id : String) (request : Request) (rest : List Request) :
    session.repliesTo id (request :: rest) =
      (if (request.question? id).isSome then [(session.answer request).2] else []) ++
        (session.answer request).1.repliesTo id rest := by
  unfold repliesTo
  rw [answerAll, List.zip_cons_cons, List.filter_cons]
  split <;> rfl

/-- While no other lowerer is made under its name, a lowerer answers in a session what it answers by
itself. -/
theorem repliesTo_of_held {lowerer : Lowerer} (held : session.lowerers.get? id = some lowerer)
    (lasts : session.latest? id requests = none) :
    session.repliesTo id requests = lowerer.replies (requests.filterMap (Request.question? id)) := by
  induction requests generalizing session lowerer with
  | nil => rfl
  | cons request rest ih =>
    rw [latest?, Option.or_eq_none_iff, Option.map_eq_none_iff] at lasts
    obtain ⟨later, unmade⟩ := lasts
    have next := get?_answer session request id
    rw [unmade, held, Option.none_or, Option.map_some] at next
    rw [repliesTo_cons, ih next later]
    cases asks : request.question? id with
    | none =>
      rw [List.filterMap_cons_none asks]
      rfl
    | some question =>
      obtain rfl := Request.question?_eq_some.mp asks
      rw [List.filterMap_cons_some asks, answer_question, held]
      rfl

end

/-! ### The whole history of a name -/

/-- For every name, the answers to what is asked of its lowerer are told by the last lowerer made under the
name, as the request for it and the registry at that time have it, and by the expressions that came for
the name since. So two sessions that make the same lowerer from the same registry give it the same
answers, whatever comes in between that is not for it, and a request for a new lowerer that fails leaves
everything in place. -/
theorem lowerers_kept_apart (id : String) :
    (∀ (before later : List Request) (question : Question),
      (({} : Session).answerAll (before ++ question.request id :: later))[before.length]? =
        some ((({} : Session).latest? id before).elim (.noLowerer id) fun (fresh, expressions) =>
          (fresh.lowered expressions).reply question)) ∧
    (∀ (session other : Session) (creation : Request) (requests changed : List Request),
      other.registry = session.registry → (creation.made? session.registry id).isSome →
      (session.answer creation).1.latest? id requests = none →
      (other.answer creation).1.latest? id changed = none →
      requests.filterMap (Request.question? id) = changed.filterMap (Request.question? id) →
      (session.answer creation).1.repliesTo id requests = (other.answer creation).1.repliesTo id changed) ∧
    ∀ (session : Session) (creation : Request), creation.Creates id →
      creation.made? session.registry id = none → (session.answer creation).1 = session := by
  refine ⟨fun before later question => ?_,
    fun session other creation requests changed same made lasts lasts' asked => ?_,
    fun session creation => answer_of_unmade⟩
  · rw [getElem?_answerAll, answer_question, get?_after]
    have start : ({} : Session).lowerers.get? id = none := rfl
    rw [start]
    cases ({} : Session).latest? id before <;> rfl
  · obtain ⟨fresh, made⟩ := Option.isSome_iff_exists.mp made
    have held : (session.answer creation).1.lowerers.get? id = some fresh := by
      rw [get?_answer, made, Option.some_or]
    have held' : (other.answer creation).1.lowerers.get? id = some fresh := by
      rw [get?_answer, same, made, Option.some_or]
    rw [repliesTo_of_held held lasts, repliesTo_of_held held' lasts', asked]

/-- A lowerer for an architecture that is replaced and taken away after it was made, while another is made,
an expression is lowered alone and a request for a new one under its name fails. -/
theorem lowerers_kept_apart_example :
    let toy (width : Int) : ProfileOutline := { name := "toy", registers := .ofList [("a", width)] }
    let creation (id : String) : Request := .create id { profile := .named "toy" }
    let session := ({} : Session).after [.register (toy 8) false]
    let made := (session.answer (creation "p")).1
    let calm : List Request := [.lower "p" "a,1,+", .inspect "p", .lower "p" "a,*"]
    let busy : List Request :=
      [.register (toy 16) true, creation "q", .lower "p" "a,1,+", .lower "q" "a,1,+", .unregister "toy",
        .inspect "p", .lowerAlone "toy" "a" false, creation "p", .lower "p" "a,*"]
    ((creation "p").made? session.registry "p").isSome ∧
    made.latest? "p" calm = none ∧ made.latest? "p" busy = none ∧
    calm.filterMap (Request.question? "p") = busy.filterMap (Request.question? "p") ∧
    made.repliesTo "p" calm = made.repliesTo "p" busy ∧
    (creation "p").made? ({} : Session).registry "p" = none ∧
    (({} : Session).answer (creation "p")).1 = {} := by
  intro toy creation session made calm busy
  have comes : ((creation "p").made? session.registry "p").isSome := by decide +kernel
  have lasts : made.latest? "p" calm = none := by decide +kernel
  have lasts' : made.latest? "p" busy = none := by decide +kernel
  have asked : calm.filterMap (Request.question? "p") = busy.filterMap (Request.question? "p") := by decide +kernel
  have missing : (creation "p").made? ({} : Session).registry "p" = none := by decide +kernel
  obtain ⟨-, apart, stays⟩ := lowerers_kept_apart "p"
  exact ⟨comes, lasts, lasts', asked, apart session session (creation "p") calm busy rfl comes lasts lasts' asked,
    missing, stays {} (creation "p") rfl missing⟩

end Session
end EsilLowering
