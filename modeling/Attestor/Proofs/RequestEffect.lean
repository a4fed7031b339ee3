import Attestor.Proofs.Offers

namespace Attestor

def Response.isSuccess : Response → Bool
  | success _ => true
  | _ => false

namespace Request

/-- The method of the request in a line. -/
def method? (line : String) : Option String :=
  (ofLine? line).map (·.method)

theorem flagParam_error {request : Request} {name : String} {e : Response}
    (h : request.flagParam name = .error e) : ∃ message, e = .invalidField name message := by
  unfold flagParam at h
  split at h
  · cases h
  · cases h
  · exact param_error h

/-- A request to sign that cannot be read is refused for one of its fields. -/
theorem offer_error {request : Request} {e : Response} (h : request.offer = .error e) :
    ∃ name message, e = .invalidField name message := by
  rcases Except.bind_error h with h | ⟨_, -, h⟩
  · exact ⟨_, sequenceParam_error h⟩
  rcases Except.bind_error h with h | ⟨_, -, h⟩
  · exact ⟨_, flagParam_error h⟩
  rcases Except.bind_error h with h | ⟨_, -, h⟩
  · exact ⟨_, param_error h⟩
  rcases Except.bind_error h with h | ⟨_, -, h⟩
  · exact ⟨_, bridgeParam_error h⟩
  rcases Except.bind_error h with h | ⟨_, -, h⟩
  · exact ⟨_, param_error h⟩
  · cases h

end Request

/-- A transfer is refused and not signed, or signed once. -/
theorem Signer.signTransfer_cases (s : Signer) (door : AccountId) (bridge : Bridge)
    (amount : Amount) (key : ClaimKey) :
    (∃ e, s.signTransfer door bridge amount key = (.error e, s)) ∨
      ∃ signed, s.signTransfer door bridge amount key = (.ok signed, s.count) := by
  unfold signTransfer
  split
  · exact .inl ⟨_, rfl⟩
  · split
    · exact .inl ⟨_, rfl⟩
    · exact .inr ⟨_, rfl⟩

namespace Service

/-- The counts of the engines, where there are any. -/
def tallies? : Service → Option (ByRole Tally)
  | persistent _ r => some r.tallies
  | stateless .. => none

/-- How many signatures the answer to a request of that method has taken. -/
def signatures (mode : Mode) (method : Option String) (response : Response) : Nat :=
  if mode = .stateless ∧ method = some "sign" ∧ response.isSuccess then 1 else 0

/-- What requests leave of a service, after they have asked it to stop or not and have had it make
so many signatures. -/
structure Answered (s : Service) (stop : Bool) (signatures : Nat) (t : Service) : Prop where
  mode : t.mode = s.mode
  bridge : t.bridge = s.bridge
  identity : t.signer.identity = s.signer.identity
  store : t.store? = s.store?
  tallies : t.tallies? = s.tallies?
  signal : t.signal = if stop then .requested else s.signal
  signed : t.signer.signed = s.signer.signed + signatures

theorem Answered.refl (s : Service) : s.Answered false 0 s :=
  ⟨rfl, rfl, rfl, rfl, rfl, rfl, rfl⟩

theorem Answered.trans {s t u : Service} {stop stop' : Bool} {m n : Nat}
    (h : s.Answered stop m t) (h' : t.Answered stop' n u) :
    s.Answered (stop || stop') (m + n) u where
  mode := h'.mode.trans h.mode
  bridge := h'.bridge.trans h.bridge
  identity := h'.identity.trans h.identity
  store := h'.store.trans h.store
  tallies := h'.tallies.trans h.tallies
  signal := by
    rw [h'.signal, h.signal]
    cases stop <;> cases stop' <;> rfl
  signed := by rw [h'.signed, h.signed, Nat.add_assoc]

theorem signatures_of_method {mode : Mode} {method : Option String} (h : method ≠ some "sign")
    (response : Response) : signatures mode method response = 0 :=
  if_neg fun signs => h signs.2.1

/-- The signature is made after every reason to refuse has passed, so the count follows the
answer. -/
theorem sign_counts (s : Signer) (request : Request) :
    (sign s request).2 = if (sign s request).1.isSuccess then s.count else s := by
  rw [sign_eq]
  cases ho : request.offer with
  | error e =>
    obtain ⟨name, message, rfl⟩ := Request.offer_error ho
    rfl
  | ok o =>
    obtain ⟨e, h⟩ | ⟨signed, h⟩ := s.signTransfer_cases o.door o.bridge o.amount o.key
    · simp only [h]
      cases e <;> rfl
    · simp only [h]
      rfl

theorem handle_unchanged {s : Service} {request : Request} (stop : request.method ≠ "stop")
    (sign : request.method ≠ "sign") : (s.handle request).2 = s := by
  unfold handle
  split
  all_goals first | rfl | contradiction

theorem handle_answered (s : Service) (request : Request) :
    s.Answered (request.method = "stop")
      (signatures s.mode (some request.method) (s.handle request).1) (s.handle request).2 := by
  by_cases stop : request.method = "stop"
  · have hs : s.handle request =
        (.success (.object [("message", .string "shutting down")]), s.setSignal .requested) := by
      cases s <;> simp only [handle, stop]
    rw [hs, stop]
    cases s <;> exact ⟨rfl, rfl, rfl, rfl, rfl, rfl, rfl⟩
  rw [decide_eq_false stop]
  by_cases sign : request.method = "sign"
  · cases s with
    | persistent b r =>
      have hs : (persistent b r).handle request =
          ((persistent b r).unavailable request.method, persistent b r) := by
        simp only [handle, sign]
      rw [hs]
      exact .refl _
    | stateless b signer signal =>
      have hs : (stateless b signer signal).handle request =
          ((Service.sign signer request).1,
            stateless b (Service.sign signer request).2 signal) := by
        simp only [handle, sign]
      rw [hs, sign, sign_counts, signatures]
      cases (Service.sign signer request).1.isSuccess <;> exact ⟨rfl, rfl, rfl, rfl, rfl, rfl, rfl⟩
  · rw [handle_unchanged stop sign, signatures_of_method fun h => sign (Option.some.inj h)]
    exact .refl _

/-- A line that holds no request leaves the service as it is. -/
theorem handleLine_none {line : String} (h : Request.ofLine? line = none) (s : Service) :
    (s.handleLine line).2 = s := by
  unfold handleLine
  split
  · rename_i j hj
    unfold handleJson
    split
    · rename_i request hr
      simp [Request.ofLine?, hj, hr, Except.toOption] at h
    · rfl
  · rfl

theorem handleLine_answered (s : Service) (line : String) :
    s.Answered (Request.method? line = some "stop")
      (signatures s.mode (Request.method? line) (s.handleLine line).1) (s.handleLine line).2 := by
  cases h : Request.ofLine? line with
  | none =>
    have hm : Request.method? line = none := by rw [Request.method?, h]; rfl
    rw [handleLine_none h, hm, signatures_of_method (Option.some_ne_none _).symm]
    exact .refl s
  | some request =>
    have hm : Request.method? line = some request.method := by rw [Request.method?, h]; rfl
    rw [handleLine_request h, hm]
    simpa using s.handle_answered request

end Service

namespace Node

/-- A request never touches what is kept about transfers, nor the loops; it asks the node to stop
exactly if its method says so, and takes a signature exactly if a node without a store answers a
request to sign with success. -/
theorem answer_effect (n : Node) (line : String) :
    (n.answer line).2.loops = n.loops ∧
    n.service.Answered (Request.method? line = some "stop")
      (if n.service.mode = .stateless ∧ Request.method? line = some "sign" ∧
        (n.answer line).1.isSuccess then 1 else 0)
      (n.answer line).2.service := by
  refine ⟨rfl, ?_⟩
  exact n.service.handleLine_answered line

/-- Answers lines one after another. -/
def answers (n : Node) : List String → List Exchange × Node
  | [] => ([], n)
  | line :: rest =>
    let (response, n) := n.answer line
    let (exchanges, n) := n.answers rest
    (⟨line, response⟩ :: exchanges, n)

/-- However many requests there are, the signatures are counted by the answers. -/
theorem answers_effect (n : Node) (lines : List String) :
    (n.answers lines).2.loops = n.loops ∧
    n.service.Answered (lines.any fun line => Request.method? line = some "stop")
      ((n.answers lines).1.map fun x =>
        Service.signatures n.service.mode (Request.method? x.line) x.response).sum
      (n.answers lines).2.service := by
  induction lines generalizing n with
  | nil => exact ⟨rfl, .refl _⟩
  | cons line rest ih =>
    obtain ⟨hloops, hrest⟩ := ih (n.answer line).2
    have hline := n.service.handleLine_answered line
    refine ⟨hloops, ?_⟩
    have hmode : (n.answer line).2.service.mode = n.service.mode := hline.mode
    rw [hmode] at hrest
    exact hline.trans hrest

end Node

end Attestor
