import Prewarm.Proofs.Transcript
import Prewarm.Registry.Resolver

/-!
# Dialogues with a registry, question by question

What is asked about a tag are requests for the head of its manifest, for the manifest and for a
token. Each part of the dialogue is written here as what it asks first and how it goes on after the
reply (`askToken_run`, `authorize_run`, `askHead_run`, `resolve_run`). A login can always be told in
a header, since base64 has no other characters than visible ones, so only a token can keep a request
from being made (`send_run`).
-/

namespace Prewarm.Registry

/-! ## Values of headers -/

/-- A login can be told in a header, whatever is in it. -/
@[simp] theorem isHeaderValue_basic (l : Login) :
    isHeaderValue (Authorization.basic l).text = true := by
  have happend : ∀ s s', isHeaderValue (s ++ s') = (isHeaderValue s && isHeaderValue s') := by
    intro s s'
    unfold isHeaderValue
    rw [String.toList_append, List.all_append]
  have hscheme : isHeaderValue "Basic " = true := by decide
  unfold Authorization.text
  rw [happend, hscheme, Bool.true_and]
  unfold isHeaderValue
  rw [String.toList_ofList, List.all_eq_true]
  intro c hc
  obtain ⟨hle, hne⟩ := Base64.visible_encode _ c hc
  simp [hle, hne]

/-! ## Requests -/

/-- A request with the reply to it, if there was one. -/
abbrev Exchange := (_ : Request) × Option Reply

/-- The request for the head of the manifest of a tag. -/
def headRequest (t : TagReference) (a : Option Authorization) : Request :=
  ⟨.head, manifestUrl t, [], a⟩

/-- The request for the manifest of a tag. -/
def manifestRequest (t : TagReference) (a : Option Authorization) : Request :=
  ⟨.manifest, manifestUrl t, [], a⟩

/-- The request for a token that a challenge sends to a realm. -/
def tokenRequest (t : TagReference) (login : Option Login) (c : Challenge) (realm : String) :
    Request where
  target := .token
  url := realm
  query :=
    ("scope", (c.params.get? "scope").getD ("repository:" ++ t.repositoryPath ++ ":pull")) ::
      (c.params.get? "service").toList.map (fun s => ("service", s))
  authorization := login.map .basic

/-- The challenge in a reply. -/
def Reply.challenge? (r : Reply) : Option Challenge :=
  (r.header? "www-authenticate").map Challenge.parse

/-- The digest that a reply tells. -/
def Reply.digest? (r : Reply) : Option String := r.header? "docker-content-digest"

/-! ## The dialogue -/

/-- A dialogue goes on after another one unless that has failed. -/
theorem run_bind {α β : Type} (x : Talk α) (f : α → Talk β) :
    (x >>= f).run = x.run.bind fun
      | .error e => .done (.error e)
      | .ok a => (f a).run := by
  refine congrArg (Dialogue.bind x.run) (funext fun r => ?_)
  cases r with
  | error e => rfl
  | ok a => rfl

/-- A request is made if its authorization can be told in a header. -/
theorem send_run (q : Request) : (send q).run =
    if q.authorization.all (fun a => isHeaderValue a.text) = true then
      .ask q fun x => .done (x.elim (.error .transport) .ok)
    else .done (.error .transport) := by
  unfold send
  split
  · refine congrArg (Dialogue.ask q) (funext fun x => ?_)
    cases x with
    | none | some reply => rfl
  · rfl

/-- A request with the login for a registry is made. -/
theorem send_run_of_login {login : Option Login} {q : Request}
    (h : q.authorization = login.map .basic) :
    (send q).run = .ask q fun x => .done (x.elim (.error .transport) .ok) := by
  rw [send_run, h]
  cases login with
  | none => rfl
  | some l => exact if_pos (isHeaderValue_basic l)

/-- What the reply to the request for a token at a realm comes to. -/
def tokenOutcome (realm : String) (reply : Reply) : Except ResolveError Authorization :=
  if Status.isSuccess reply.code = true then
    match tokenOf? (.ofBytes reply.body) with
    | none => .error .transport
    | some token => (token.filter (· ≠ "")).elim (.error .missingToken) (fun s => .ok (.bearer s))
  else .error (.status reply.code realm)

theorem askToken_run (c : Challenge) (url : String) (t : TagReference) (login : Option Login) :
    (askToken c url t login).run =
      match c.params.get? "realm" with
      | none => .done (.error (.challenge url))
      | some realm => .ask (tokenRequest t login c realm) fun x =>
          .done (x.elim (.error .transport) (tokenOutcome realm)) := by
  unfold askToken
  cases c.params.get? "realm" with
  | none => rfl
  | some realm =>
    dsimp only
    rw [run_bind, send_run_of_login rfl]
    refine congrArg (Dialogue.ask _) (funext fun x => ?_)
    cases x with
    | none => rfl
    | some reply =>
      unfold tokenOutcome
      dsimp only [Option.elim, Dialogue.bind_done]
      by_cases hcode : Status.isSuccess reply.code = true
      · rw [if_neg (not_not_intro hcode), if_pos hcode]
        cases tokenOf? (.ofBytes reply.body) with
        | none => rfl
        | some token =>
          dsimp only
          cases token.filter (· ≠ "") with
          | none | some s => rfl
      · rw [if_pos hcode, if_neg hcode]
        rfl

/-- The challenge of a registry is answered by its scheme. -/
theorem authorize_run (first : Reply) (url : String) (t : TagReference) (login : Option Login) :
    (authorize first url t login).run =
      match first.challenge? with
      | none => .done (.error (.challenge url))
      | some c =>
        if c.scheme = "basic" then
          .done (login.elim (.error (.status 401 url)) (fun l => .ok (.basic l)))
        else if c.scheme = "bearer" then (askToken c url t login).run
        else .done (.error (.challenge url)) := by
  unfold authorize Reply.challenge?
  cases first.header? "www-authenticate" with
  | none => rfl
  | some header =>
    dsimp only [Option.map_some]
    split
    · cases login with
      | none | some l => rfl
    · split
      · rfl
      · rfl

/-- How the question for a head goes on if the registry wants to know who asks. -/
def askAgain (t : TagReference) (login : Option Login) (first : Reply) :
    Dialogue Request (fun _ => Option Reply) (Except ResolveError (Reply × Option Authorization)) :=
  (authorize first (manifestUrl t) t login).run.bind fun
    | .error e => .done (.error e)
    | .ok a =>
      if isHeaderValue a.text = true then
        .ask (headRequest t (some a)) fun x =>
          .done (x.elim (.error .transport) fun reply => .ok (reply, some a))
      else .done (.error .transport)

theorem askHead_run (t : TagReference) (login : Option Login) :
    (askHead (manifestUrl t) t login).run =
      .ask (headRequest t (login.map .basic)) fun
        | none => .done (.error .transport)
        | some reply =>
          if reply.code = 401 then askAgain t login reply
          else .done (.ok (reply, login.map .basic)) := by
  unfold askHead askAgain
  rw [run_bind, send_run_of_login rfl]
  refine congrArg (Dialogue.ask _) (funext fun x => ?_)
  cases x with
  | none => rfl
  | some reply =>
    dsimp only [Option.elim, Dialogue.bind_done]
    split
    · rw [run_bind]
      refine congrArg (Dialogue.bind _) (funext fun r => ?_)
      cases r with
      | error e => rfl
      | ok a =>
        dsimp only
        rw [run_bind, send_run]
        dsimp only [Option.all_some]
        split
        · refine congrArg (Dialogue.ask _) (funext fun x => ?_)
          cases x with
          | none | some reply => rfl
        · rfl
    · rfl

/-- How the question for a digest goes on after the last head. -/
def conclude (t : TagReference) (a : Option Authorization) (head : Reply) :
    Dialogue Request (fun _ => Option Reply) (Except ResolveError String) :=
  if Status.isSuccess head.code = true then
    match head.digest? with
    | some digest => .done (.ok digest)
    | none => (send (manifestRequest t a)).run.bind fun
      | .error e => .done (.error e)
      | .ok got => .done <|
        if Status.isSuccess got.code = true then .ok (digestOf got.body)
        else .error (.status got.code (manifestUrl t))
  else .done (.error (.status head.code (manifestUrl t)))

theorem resolve_run (t : TagReference) (logins : Logins) :
    (resolve t logins).run =
      (askHead (manifestUrl t) t (logins.get? t.registryHost)).run.bind fun
        | .error e => .done (.error e)
        | .ok (head, a) => conclude t a head := by
  unfold resolve conclude
  rw [run_bind]
  refine congrArg (Dialogue.bind _) (funext fun r => ?_)
  cases r with
  | error e => rfl
  | ok head =>
    obtain ⟨reply, a⟩ := head
    unfold Reply.digest?
    dsimp only
    by_cases hcode : Status.isSuccess reply.code = true
    · rw [if_neg (not_not_intro hcode), if_pos hcode]
      cases reply.header? "docker-content-digest" with
      | some digest => rfl
      | none =>
        dsimp only
        rw [run_bind]
        refine congrArg (Dialogue.bind _) (funext fun r => ?_)
        cases r with
        | error e => rfl
        | ok got =>
          dsimp only
          by_cases hgot : Status.isSuccess got.code = true
          · rw [if_neg (not_not_intro hgot), if_pos hgot]
            rfl
          · rw [if_pos hgot, if_neg hgot]
            rfl
    · rw [if_pos hcode, if_neg hcode]
      rfl

end Prewarm.Registry
