import MinIODB.Library.Transition

/-!
# Refresh tokens

A refresh request validates its token, revokes it, generates new tokens and stores the new refresh
token. The REST handler revokes before it generates, and the gRPC handler after. With Redis both
use one store, and without it each has a map of its own. Every command is one step, and the steps
of different requests interleave.
-/
namespace MinIODB.Security
open Transition List Option

inductive Api where
  | rest | grpc
  deriving DecidableEq

inductive RefreshPhase where
  | validating
  | revoking (userID : String) (generated : Option String)
  | generating (userID : String) (revoked : Bool)
  | storing (userID newRefreshToken : String)
  | succeeded
  | failed
  deriving DecidableEq

structure RefreshRequest where
  api : Api
  token : String
  phase : RefreshPhase
  deriving DecidableEq

structure TokenState where
  stores : Api → String → Option String
  requests : List RefreshRequest

structure RefreshEnv where
  ok : Bool
  generated : String

inductive TokenAction where
  | getToken (api : Api) (token userID : String)
  | refresh (api : Api) (token : String)
  | step (i : ℕ) (e : RefreshEnv)
  | expire (api : Api) (token : String)

def TokenState.new : TokenState := ⟨fun _ _ => none, []⟩

def slot (useRedis : Bool) (api : Api) : Api := if useRedis then .rest else api

namespace TokenState
variable (useRedis : Bool) (s : TokenState)

def validateRefreshToken (api : Api) (token : String) (ok : Bool) : Option String :=
  if ok || !useRedis then s.stores (slot useRedis api) token else none

def put (api : Api) (token : String) (userID : Option String) : TokenState :=
  { s with stores := fun a t => if a = slot useRedis api ∧ t = token then userID else s.stores a t }

def storeRefreshToken (api : Api) (token userID : String) : TokenState :=
  s.put useRedis api token (some userID)

def revokeRefreshToken (api : Api) (token : String) : TokenState := s.put useRedis api token none

def setPhase (i : ℕ) (r : RefreshRequest) (phase : RefreshPhase) : TokenState :=
  { s with requests := s.requests.set i { r with phase := phase } }

def stepRequest (i : ℕ) (r : RefreshRequest) (e : RefreshEnv) : Option TokenState :=
  match r.phase with
  | .validating =>
    match s.validateRefreshToken useRedis r.api r.token e.ok with
    | none => some (s.setPhase i r .failed)
    | some userID =>
      some (s.setPhase i r (if r.api = .rest then .revoking userID none else .generating userID false))
  | .revoking userID generated =>
    let s' := if e.ok || !useRedis then s.revokeRefreshToken useRedis r.api r.token else s
    some (s'.setPhase i r (match generated with
      | none => .generating userID true
      | some new => .storing userID new))
  | .generating userID revoked =>
    if e.ok then
      some (s.setPhase i r (if revoked then .storing userID e.generated else .revoking userID (some e.generated)))
    else some (s.setPhase i r .failed)
  | .storing userID new =>
    if e.ok || !useRedis then
      some ((s.storeRefreshToken useRedis r.api new userID).setPhase i r .succeeded)
    else some (s.setPhase i r (if r.api = .rest then .succeeded else .failed))
  | .succeeded => none
  | .failed => none

def step : TokenAction → Option TokenState
  | .getToken api token userID => some (s.storeRefreshToken useRedis api token userID)
  | .refresh api token =>
    some { s with requests := s.requests ++ [⟨api, token, if token = "" then .failed else .validating⟩] }
  | .step i e => s.requests[i]?.bind (fun r => s.stepRequest useRedis i r e)
  | .expire api token => some (s.revokeRefreshToken useRedis api token)

end TokenState

namespace RefreshPhase

def holds : RefreshPhase → Bool
  | .revoking _ _ => true
  | .generating _ revoked => !revoked
  | _ => false

def spent : RefreshPhase → Bool
  | .generating _ revoked => revoked
  | .storing _ _ => true
  | .succeeded => true
  | _ => false

def accepted (phase : RefreshPhase) : Bool := phase.holds || phase.spent

def isRevoking : RefreshPhase → Bool
  | .revoking _ _ => true
  | _ => false

def newRefreshToken : RefreshPhase → Option String
  | .storing _ new => some new
  | _ => none

end RefreshPhase

def TokenState.Fresh (s : TokenState) (token : String) : Prop :=
  (∀ r ∈ s.requests, r.token ≠ token) ∧ ∀ api ∈ [Api.rest, .grpc], s.stores api token = none

/-- A token is validated only while no other request with it is between its validation and its
revocation, the commands that revoke succeed, and generated tokens are new. -/
def Exclusive (useRedis : Bool) (s : TokenState) : TokenAction → Prop
  | .getToken _ token _ => s.Fresh token
  | .step i e => ∀ r ∈ s.requests[i]?,
      (r.phase = .validating → ∀ r' ∈ s.requests, r'.token = r.token → r'.phase.holds = false) ∧
      (r.phase.isRevoking = true → (e.ok || !useRedis) = true) ∧
      ∀ new ∈ r.phase.newRefreshToken, s.Fresh new
  | _ => True

instance (s : TokenState) (token : String) : Decidable (s.Fresh token) :=
  inferInstanceAs (Decidable (_ ∧ _))

instance (useRedis : Bool) (s : TokenState) : ∀ a, Decidable (Exclusive useRedis s a)
  | .getToken _ token _ => inferInstanceAs (Decidable (s.Fresh token))
  | .step i _ => inferInstanceAs (Decidable (∀ r ∈ s.requests[i]?, _ ∧ _ ∧ ∀ new ∈ r.phase.newRefreshToken, _))
  | .refresh _ _ | .expire _ _ => inferInstanceAs (Decidable True)

structure SingleUse (useRedis : Bool) (s : TokenState) : Prop where
  spent : ∀ r ∈ s.requests, r.phase.spent = true → ∀ api, s.stores api r.token = none
  held : ∀ r ∈ s.requests, r.phase.holds = true → ∀ api, api ≠ slot useRedis r.api →
    s.stores api r.token = none
  one : ∀ (i j : ℕ) r r', s.requests[i]? = some r → s.requests[j]? = some r' → r.token = r'.token →
    r.phase.accepted = true → r'.phase.accepted = true → i = j
  single : ∀ token api api', s.stores api token ≠ none → s.stores api' token ≠ none → api = api'

namespace SingleUse
variable {useRedis : Bool} {s s' : TokenState} {i : ℕ} {r : RefreshRequest} {phase : RefreshPhase}

lemma setPhase (h : SingleUse useRedis s) (hi : s.requests[i]? = some r)
    (hspent : phase.spent → ∀ api, s.stores api r.token = none)
    (hheld : phase.holds → ∀ api, api ≠ slot useRedis r.api → s.stores api r.token = none)
    (hone : phase.accepted → r.phase.accepted = false →
      ∀ r' ∈ s.requests, r'.token = r.token → r'.phase.accepted = false) :
    SingleUse useRedis (s.setPhase i r phase) where
  spent := by
    intro q hq hp
    rcases mem_or_eq_of_mem_set hq with hq | rfl
    · exact h.spent q hq hp
    · exact hspent hp
  held := by
    intro q hq hp
    rcases mem_or_eq_of_mem_set hq with hq | rfl
    · exact h.held q hq hp
    · exact hheld hp
  one := by
    -- a request that was accepted before is the only one, and otherwise there is none
    have hother : ∀ (j : ℕ) q, s.requests[j]? = some q → q.token = r.token → q.phase.accepted →
        phase.accepted = true → i = j := by
      intro j q hq htoken haccepted hp
      cases hr : r.phase.accepted with
      | true => exact h.one i j r q hi hq htoken.symm hr haccepted
      | false => simp [hone hp hr q (mem_of_getElem? hq) htoken] at haccepted
    intro j k q q' hq hq' htoken hp hp'
    rcases getElem?_set_cases hq with ⟨rfl, rfl⟩ | ⟨-, hq⟩
    · rcases getElem?_set_cases hq' with ⟨rfl, -⟩ | ⟨-, hq'⟩
      · rfl
      · exact hother k q' hq' htoken.symm hp' hp
    · rcases getElem?_set_cases hq' with ⟨rfl, rfl⟩ | ⟨-, hq'⟩
      · exact (hother j q hq htoken hp hp').symm
      · exact h.one j k q q' hq hq' htoken hp hp'
  single := h.single

lemma store {token userID : String} {api : Api} (h : SingleUse useRedis s) (hfresh : s.Fresh token) :
    SingleUse useRedis (s.storeRefreshToken useRedis api token userID) := by
  have hother : ∀ r ∈ s.requests, ∀ a,
      (s.storeRefreshToken useRedis api token userID).stores a r.token = s.stores a r.token :=
    fun r hr a => if_neg (fun ht => hfresh.1 r hr ht.2)
  refine ⟨fun r hr hp a => ?_, fun r hr hp a ha => ?_, h.one, fun t a a' hne hne' => ?_⟩
  · rw [hother r hr]
    exact h.spent r hr hp a
  · rw [hother r hr]
    exact h.held r hr hp a ha
  · simp only [TokenState.storeRefreshToken, TokenState.put] at hne hne'
    split_ifs at hne hne' with hs hs' hs'
    · exact hs.1.trans hs'.1.symm
    · exact absurd (hs.2 ▸ hfresh.2 a' (by cases a' <;> simp)) hne'
    · exact absurd (hs'.2 ▸ hfresh.2 a (by cases a <;> simp)) hne
    · exact h.single t a a' hne hne'

lemma revoke (h : SingleUse useRedis s) (api : Api) (token : String) :
    SingleUse useRedis (s.revokeRefreshToken useRedis api token) := by
  have hsub : ∀ a t, s.stores a t = none → (s.revokeRefreshToken useRedis api token).stores a t = none := by
    intro a t hnone
    simp [TokenState.revokeRefreshToken, TokenState.put, hnone, ite_self]
  exact ⟨fun r hr hp a => hsub a _ (h.spent r hr hp a), fun r hr hp a ha => hsub a _ (h.held r hr hp a ha), h.one,
    fun t a a' hne hne' => h.single t a a' (mt (hsub a t) hne) (mt (hsub a' t) hne')⟩

open RefreshPhase

lemma stepRequest {e : RefreshEnv} (h : SingleUse useRedis s) (hi : s.requests[i]? = some r)
    (hg : Exclusive useRedis s (.step i e)) (hs : s.stepRequest useRedis i r e = some s') :
    SingleUse useRedis s' := by
  have hmem := mem_of_getElem? hi
  have hg := hg r hi
  unfold TokenState.stepRequest at hs
  split at hs
  · rename_i hphase
    have hg := hg.1 hphase
    split at hs
    · cases hs
      exact h.setPhase hi (by simp [RefreshPhase.spent]) (by simp [RefreshPhase.holds])
        (by simp [RefreshPhase.accepted, RefreshPhase.holds, RefreshPhase.spent])
    · rename_i userID hvalid
      have hstored : s.stores (slot useRedis r.api) r.token ≠ none := by
        rw [(ite_none_right_eq_some.mp hvalid).2]
        exact some_ne_none userID
      cases hs
      refine h.setPhase hi (fun hp => ?_) (fun _ api hapi => ?_) (fun _ _ r' hr' htoken => ?_)
      · cases hapi : r.api <;> simp [hapi, RefreshPhase.spent] at hp
      · by_contra hne
        exact hapi (h.single r.token api _ hne hstored)
      · have hspent : r'.phase.spent = false := by
          rw [Bool.eq_false_iff]
          exact fun hp => hstored (htoken ▸ h.spent r' hr' hp _)
        rw [accepted, hg r' hr' htoken, hspent, Bool.or_false]
  · rename_i userID generated hphase
    cases hs
    rw [if_pos (hg.2.1 (by rw [hphase]; rfl))]
    have hheld := h.held r hmem (by rw [hphase]; rfl)
    refine (h.revoke r.api r.token).setPhase hi (fun _ api => ?_) (fun hp => ?_) (fun _ hr => ?_)
    · by_cases hapi : api = slot useRedis r.api
      · exact if_pos ⟨hapi, rfl⟩
      · exact (if_neg (fun heq => hapi heq.1)).trans (hheld api hapi)
    · cases generated <;> cases hp
    · rw [hphase] at hr
      cases hr
  · rename_i userID revoked hphase
    have haccepted : r.phase.accepted := by
      rw [hphase]
      cases revoked <;> rfl
    split at hs <;> cases hs
    · refine h.setPhase hi (fun hp => ?_) (fun hp => ?_) (by simp [haccepted])
      · cases revoked with
        | true => exact h.spent r hmem (by rw [hphase]; rfl)
        | false => cases hp
      · cases revoked with
        | true => cases hp
        | false => exact h.held r hmem (by rw [hphase]; rfl)
    · exact h.setPhase hi (by simp [RefreshPhase.spent]) (by simp [RefreshPhase.holds]) (by simp [haccepted])
  · rename_i userID new hphase
    have hfresh := hg.2.2 new (by rw [hphase]; rfl)
    have hspent := h.spent r hmem (by rw [hphase]; rfl)
    have haccepted : r.phase.accepted := by
      rw [hphase]
      rfl
    split at hs <;> cases hs
    · have hstored : SingleUse useRedis (s.storeRefreshToken useRedis r.api new userID) := h.store hfresh
      exact hstored.setPhase hi (fun _ => hstored.spent r hmem (by rw [hphase]; rfl))
        (by simp [holds]) (by simp [haccepted])
    · refine h.setPhase hi (fun _ => hspent) (fun hp => ?_) (by simp [haccepted])
      cases hapi : r.api <;> simp [hapi, holds] at hp
  · cases hs
  · cases hs

lemma refresh (h : SingleUse useRedis s) (hr : r.phase.accepted = false) :
    SingleUse useRedis { s with requests := s.requests ++ [r] } := by
  have hold : ∀ (j : ℕ) q, (s.requests ++ [r])[j]? = some q → q.phase.accepted →
      s.requests[j]? = some q := by
    intro j q hq hp
    rcases getElem?_concat_cases hq with hq | ⟨-, rfl⟩
    · exact hq
    · rw [hr] at hp
      cases hp
  have hmem : ∀ q ∈ s.requests ++ [r], q.phase.accepted → q ∈ s.requests := by
    intro q hq hp
    obtain ⟨j, hj⟩ := mem_iff_getElem?.mp hq
    exact mem_of_getElem? (hold j q hj hp)
  refine ⟨fun q hq hp => ?_, fun q hq hp => ?_, fun i j q q' hi hj htoken hp hp' => ?_, h.single⟩
  · exact h.spent q (hmem q hq (by simp [accepted, hp])) hp
  · exact h.held q (hmem q hq (by simp [accepted, hp])) hp
  · exact h.one i j q q' (hold i q hi hp) (hold j q' hj hp') htoken hp hp'

lemma step {a : TokenAction} (h : SingleUse useRedis s) (hg : Exclusive useRedis s a)
    (hs : s.step useRedis a = some s') : SingleUse useRedis s' := by
  cases a with
  | getToken =>
    cases hs
    exact h.store hg
  | refresh =>
    cases hs
    refine h.refresh ?_
    dsimp only
    split <;> rfl
  | step =>
    obtain ⟨r, hi, hs⟩ := bind_eq_some_iff.mp hs
    exact h.stepRequest hi hg hs
  | expire api token =>
    cases hs
    exact h.revoke api token

end SingleUse

/-- If no token is validated while another request is about to revoke it, if revocations succeed
and if new tokens are new: at most one of the requests that present a token succeeds, and from then
on no API validates the token. -/
theorem refresh_token_used_once {useRedis : Bool} {as : List TokenAction} {s : TokenState}
    (hg : Guarded (fun (s : TokenState) a => s.step useRedis a) (Exclusive useRedis) .new as)
    (hrun : exec (fun (s : TokenState) a => s.step useRedis a) .new as = some s) :
    (∀ (i j : ℕ) r r', s.requests[i]? = some r → s.requests[j]? = some r' → r.token = r'.token →
      r.phase = .succeeded → r'.phase = .succeeded → i = j) ∧
    ∀ r ∈ s.requests, r.phase = .succeeded → ∀ api ok,
      s.validateRefreshToken useRedis api r.token ok = none := by
  have hnew : SingleUse useRedis .new :=
    ⟨by simp [TokenState.new], by simp [TokenState.new], by simp [TokenState.new], by simp [TokenState.new]⟩
  have h := exec_invariant (SingleUse useRedis) (fun s a s' h hg hs => h.step hg hs) hnew hg hrun
  constructor
  · intro i j r r' hi hj htoken hp hp'
    exact h.one i j r r' hi hj htoken (by rw [hp]; rfl) (by rw [hp']; rfl)
  · intro r hr hp api ok
    rw [TokenState.validateRefreshToken, h.spent r hr (by rw [hp]; rfl), ite_self]

def phasesAfter (useRedis : Bool) (as : List TokenAction) : Option (List RefreshPhase) :=
  (exec (fun (s : TokenState) a => s.step useRedis a) .new as).map (fun s => s.requests.map (fun r => r.phase))

def works (i : ℕ) (new : String) : TokenAction := .step i ⟨true, new⟩

def oneAfterTheOther : List TokenAction :=
  [.getToken .rest "t" "u", .refresh .rest "t", works 0 "", works 0 "", works 0 "n", works 0 "",
    .refresh .grpc "t", works 1 ""]

theorem refresh_token_used_once_sequential :
    phasesAfter true oneAfterTheOther = some [.succeeded, .failed] ∧
    ∃ s, exec (fun (s : TokenState) a => s.step true a) .new oneAfterTheOther = some s ∧
      ∀ r ∈ s.requests, r.phase = .succeeded → ∀ api ok,
        s.validateRefreshToken true api r.token ok = none := by
  have hphases : phasesAfter true oneAfterTheOther = some [.succeeded, .failed] := by decide +kernel
  obtain ⟨s, hs, -⟩ := map_eq_some_iff.mp hphases
  exact ⟨hphases, s, hs, (refresh_token_used_once (by decide +kernel) hs).2⟩

def bothValidate : List TokenAction :=
  [.getToken .rest "t" "u", .refresh .rest "t", .refresh .rest "t", works 0 "", works 1 "", works 0 "", works 1 "",
    works 0 "n", works 1 "m", works 0 "", works 1 ""]

def notRevoked : List TokenAction :=
  [.getToken .grpc "t" "u", .refresh .grpc "t", works 0 "", works 0 "n", .step 0 ⟨false, ""⟩, works 0 "",
    .refresh .rest "t", works 1 "", works 1 "", works 1 "m", works 1 ""]

/-- Two requests validate the token before one of them revokes it, or the DEL command of the gRPC
handler fails, which it ignores. -/
theorem refresh_token_used_twice : phasesAfter false bothValidate = some [.succeeded, .succeeded] ∧
    phasesAfter true bothValidate = some [.succeeded, .succeeded] ∧
    phasesAfter true notRevoked = some [.succeeded, .succeeded] := by
  decide +kernel

end MinIODB.Security
