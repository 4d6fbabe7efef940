import Stellance.Library.Serial
import Stellance.Auth.Rotation

/-! The requests of a session, from their first answer to their last: what each is told
before the one step that counts, in that step, and after it. -/
namespace Stellance.Auth
open AuthService
open Process hiding await
open Backend (Uuid UserRole)

/-- A request that goes on with a session or ends it. -/
def Endpoint.InSession : Endpoint → Prop
  | .refresh _ | .revokeRefreshToken _ | .logoutAll _ => True
  | _ => False

/-- A request that asks for nothing. -/
inductive Silent : Endpoint → Except Failure Response → Prop where
  | missing : Silent (.refresh "") (.error (.unauthorized "Missing refresh token"))
  | nothing : Silent (.revokeRefreshToken "") (.ok .done)

/-- What a request is told before the step that counts, in it and after it, and its result.
A refresh that leaves everything as it is counts with its reading. -/
inductive Life (config : Config) :
    Endpoint → List Exchange → Exchange → List Exchange → Except Failure Response → Prop where
  | unknown {refreshToken : String} (given : refreshToken ≠ "") :
      Life config (.refresh refreshToken) []
        ⟨.findRefreshToken (hashRefreshToken config refreshToken), .ok none⟩ []
        (.error (.unauthorized "Invalid refresh token"))
  | revoked {refreshToken : String} {row : RefreshToken} {user : User} (given : refreshToken ≠ "")
      (revoked : row.revoked = true) (unreplaced : row.replacedByTokenId = none) :
      Life config (.refresh refreshToken) [] (seen (hashRefreshToken config refreshToken) row user) []
        (.error (.unauthorized "Refresh token revoked"))
  | reused {refreshToken : String} {row : RefreshToken} {user : User} (given : refreshToken ≠ "")
      (revoked : row.revoked = true) (replaced : row.replacedByTokenId.isSome = true) :
      Life config (.refresh refreshToken)
        [seen (hashRefreshToken config refreshToken) row user, ⟨.incrementTokenVersion row.userId, .ok ()⟩]
        ⟨.revokeAll row.userId, .ok ()⟩ [] (.error (.forbidden "Refresh token reuse detected"))
  | expired {refreshToken : String} {row : RefreshToken} {user : User} {now : Nat}
      (given : refreshToken ≠ "") (unrevoked : row.revoked = false) (expired : row.expiresAt ≤ now) :
      Life config (.refresh refreshToken) [] (seen (hashRefreshToken config refreshToken) row user)
        [⟨.now, .ok now⟩] (.error (.unauthorized "Refresh token expired"))
  | outdated {refreshToken : String} {row : RefreshToken} {user : User} {now : Nat}
      (given : refreshToken ≠ "") (unrevoked : row.revoked = false) (unexpired : now < row.expiresAt)
      (outdated : user.tokenVersion ≠ row.tokenVersion) :
      Life config (.refresh refreshToken) [] (seen (hashRefreshToken config refreshToken) row user)
        [⟨.now, .ok now⟩] (.error (.unauthorized "Refresh token invalid"))
  | rotated {refreshToken : String} {row : RefreshToken} {user : User} {now later : Nat} {bytes : String}
      {access : AccessToken} (given : refreshToken ≠ "") (able : Exchangeable row user now) :
      Life config (.refresh refreshToken)
        (prepared (hashRefreshToken config refreshToken) row user now bytes later)
        ⟨.rotate row.id (successor config row user bytes later), .ok ()⟩
        [⟨.sign (payload user.result) config.accessTokenExpiresIn, .ok access⟩]
        (.ok (.session ⟨access, bytes⟩))
  | raced {refreshToken : String} {row : RefreshToken} {user : User} {now later : Nat} {bytes : String}
      {error : Failure} (given : refreshToken ≠ "") (able : Exchangeable row user now)
      (forbidden : Failure.isForbidden error = true) :
      Life config (.refresh refreshToken)
        (prepared (hashRefreshToken config refreshToken) row user now bytes later ++
          [⟨.rotate row.id (successor config row user bytes later), .error error⟩,
            ⟨.incrementTokenVersion row.userId, .ok ()⟩])
        ⟨.revokeAll row.userId, .ok ()⟩ [] (.error error)
  | revoke {refreshToken : String} (given : refreshToken ≠ "") :
      Life config (.revokeRefreshToken refreshToken) []
        ⟨.revokeRefreshToken (hashRefreshToken config refreshToken), .ok ()⟩ [] (.ok .done)
  | logoutAll {userId : Uuid} :
      Life config (.logoutAll userId) [⟨.incrementTokenVersion userId, .ok ()⟩]
        ⟨.revokeAll userId, .ok ()⟩ [] (.ok .done)
  | unknownUser {userId : Uuid} {error : Failure} :
      Life config (.logoutAll userId) [] ⟨.incrementTokenVersion userId, .error error⟩ [] (.error error)

section Lives
variable {config : Config} {endpoint : Endpoint} {told before after : List Exchange} {commit : Exchange}
  {result : Except Failure Response}

/-- The failures of operations a request can be told of. -/
def Clean (endpoint : Endpoint) (told : List Exchange) : Prop :=
  ∀ op error, (⟨op, .error error⟩ : Exchange) ∈ told →
    (∃ existingId data, op = .rotate existingId data ∧ Failure.isForbidden error = true) ∨
      ∃ userId, op = .incrementTokenVersion userId ∧ endpoint = .logoutAll userId

/-- A request that has ended without any other failure has been silent or has had its life. -/
theorem life_of_ends (session : endpoint.InSession) (ends : Ends config endpoint told result)
    (clean : Clean endpoint told) : told = [] ∧ Silent endpoint result ∨
      ∃ before commit after, told = before ++ commit :: after ∧
        Life config endpoint before commit after result := by
  cases endpoint with
  | refresh refreshToken =>
    obtain ⟨session, life, rfl⟩ := ends
    cases life with
    | missing empty =>
      subst empty
      exact .inl ⟨rfl, .missing⟩
    | unknown given => exact .inr ⟨_, _, _, rfl, .unknown given⟩
    | revoked given revoked unreplaced => exact .inr ⟨_, _, _, rfl, .revoked given revoked unreplaced⟩
    | reused given revoked replaced => exact .inr ⟨[_, _], _, _, rfl, .reused given revoked replaced⟩
    | expired given unrevoked expired => exact .inr ⟨[], _, _, rfl, .expired given unrevoked expired⟩
    | outdated given unrevoked unexpired outdated =>
      exact .inr ⟨[], _, _, rfl, .outdated given unrevoked unexpired outdated⟩
    | rotated given able => exact .inr ⟨_, _, _, rfl, .rotated given able⟩
    | @raced row user now later bytes error given able forbidden =>
      refine .inr ⟨prepared (hashRefreshToken config refreshToken) row user now bytes later ++ [_, _], _,
        [], ?_, .raced given able forbidden⟩
      rw [List.append_assoc]
      rfl
    | @failed told op error failed =>
      rcases clean op error (List.mem_append_right _ List.mem_cons_self) with
        ⟨existingId, data, rotates, forbidden⟩ | ⟨_, _, other⟩
      · rw [failed existingId data rotates] at forbidden
        contradiction
      · contradiction
  | revokeRefreshToken refreshToken =>
    rcases ends with ⟨rfl, rfl, rfl⟩ | ⟨answer, given, rfl, rfl⟩
    · exact .inl ⟨rfl, .nothing⟩
    · cases answer with
      | ok => exact .inr ⟨_, _, _, rfl, .revoke given⟩
      | error error =>
        rcases clean _ error List.mem_cons_self with ⟨_, _, other, _⟩ | ⟨_, other, _⟩ <;> contradiction
  | logoutAll userId =>
    rcases ends with ⟨rfl, rfl⟩ | ⟨error, rfl, rfl | rfl⟩
    · exact .inr ⟨[_], _, _, rfl, .logoutAll⟩
    · exact .inr ⟨[], _, _, rfl, .unknownUser⟩
    · rcases clean _ error (List.mem_cons_of_mem _ List.mem_cons_self) with
        ⟨_, _, other, _⟩ | ⟨_, other, _⟩ <;> contradiction
  | _ => contradiction

/-! ### The step that counts -/

/-- The exchange changes rows. -/
def writes : Exchange → Bool
  | ⟨.rotate .., .ok _⟩ | ⟨.revokeRefreshToken _, _⟩ | ⟨.revokeAll _, _⟩ => true
  | _ => false

/-- The exchange counts where no other changes rows. -/
def opens : Exchange → Bool
  | ⟨.findRefreshToken _, _⟩ | ⟨.incrementTokenVersion _, .error _⟩ => true
  | _ => false

/-- Whether an exchange of a request is the step that counts, where it was told these in all. -/
def commits (told : List Exchange) (exchange : Exchange) : Bool :=
  writes exchange || (!told.any writes && opens exchange)

theorem Life.commits (life : Life config endpoint before commit after result) :
    commits (before ++ commit :: after) commit = true ∧
      (∀ exchange ∈ before, Auth.commits (before ++ commit :: after) exchange = false) ∧
      ∀ exchange ∈ after, Auth.commits (before ++ commit :: after) exchange = false := by
  cases life <;> simp [Auth.commits, writes, opens, prepared, seen]

theorem Life.session (life : Life config endpoint before commit after result) : endpoint.InSession := by
  cases life <;> trivial

/-! ### Back to the requests -/

theorem silent_leads (silent : Silent endpoint result) : (handle config endpoint).Leads [] (ended result) := by
  cases silent with
  | missing => exact .refl _
  | nothing => exact .refl _

theorem logoutAll_leads {userId : Uuid} : (AuthService.logoutAll userId).Leads
    [⟨.incrementTokenVersion userId, .ok ()⟩, ⟨.revokeAll userId, .ok ()⟩]
    (ended (.ok ()) : Request Unit) :=
  .step (.step (.refl _))

theorem rotateOrLogoutAll_leads {row : RefreshToken} {data : NewToken} {error : Failure}
    (forbidden : Failure.isForbidden error = true) : (rotateOrLogoutAll row data).Leads
      [⟨.rotate row.id data, .error error⟩, ⟨.incrementTokenVersion row.userId, .ok ()⟩,
        ⟨.revokeAll row.userId, .ok ()⟩] (fail error) := by
  unfold rotateOrLogoutAll
  refine .step ?_
  dsimp only [Process.tryCatch]
  rw [if_pos forbidden]
  exact logoutAll_leads.onwards (.refl _)

/-- What a request can be told in its life, it goes through. -/
theorem Life.leads (life : Life config endpoint before commit after result) :
    (handle config endpoint).Leads (before ++ commit :: after) (ended result) := by
  have refreshed : ∀ {refreshToken : String} {told : List Exchange} (result : Except Failure Session),
      (AuthService.refresh config refreshToken).Leads told (ended result) →
      (handle config (.refresh refreshToken)).Leads told (ended (result.map .session)) :=
    fun _ leads => leads.map
  cases life with
  | unknown given => exact refreshed (.error _) (leads_past given (leads_perform (.refl _)))
  | revoked given revoked unreplaced =>
    refine refreshed (.error _) (leads_past given (leads_perform (leads_orThrow ?_)))
    dsimp only
    rw [if_pos revoked, if_neg (by simp [unreplaced])]
    exact .refl _
  | reused given revoked replaced =>
    refine refreshed (.error _) (leads_past given (leads_perform (leads_orThrow ?_)))
    dsimp only
    rw [if_pos revoked, if_pos replaced]
    exact logoutAll_leads.onwards (.refl _)
  | expired given unrevoked expired =>
    refine refreshed (.error _) (leads_past given (leads_perform (leads_orThrow ?_)))
    dsimp only
    rw [if_neg (by simp [unrevoked])]
    exact leads_perform (leads_throwIf expired)
  | outdated given unrevoked unexpired outdated =>
    refine refreshed (.error _) (leads_past given (leads_perform (leads_orThrow ?_)))
    dsimp only
    rw [if_neg (by simp [unrevoked])]
    exact leads_perform (leads_past (Nat.not_le.mpr unexpired) (leads_throwIf outdated))
  | rotated given able =>
    refine refreshed (.ok _) (leads_past given (leads_perform (leads_orThrow ?_)))
    dsimp only
    rw [if_neg (by simp [able.unrevoked])]
    refine leads_perform (leads_past (Nat.not_le.mpr able.unexpired) (leads_past ?_ ?_))
    · exact not_not.mpr able.current
    · exact leads_perform (leads_perform (.step (leads_perform (.refl _))))
  | raced given able forbidden =>
    refine refreshed (.error _) (leads_past given (leads_perform (leads_orThrow ?_)))
    dsimp only
    rw [if_neg (by simp [able.unrevoked])]
    refine leads_perform (leads_past (Nat.not_le.mpr able.unexpired) (leads_past ?_ ?_))
    · exact not_not.mpr able.current
    · exact leads_perform (leads_perform (rotateOrLogoutAll_leads forbidden).bind)
  | revoke given =>
    change ((fun _ => Response.done) <$> revokeRefreshToken config _ : Request Response).Leads _ _
    unfold revokeRefreshToken
    rw [if_neg given]
    exact .step (.refl _)
  | logoutAll => exact logoutAll_leads.map
  | unknownUser => exact .step (.refl _)

end Lives

end Stellance.Auth
