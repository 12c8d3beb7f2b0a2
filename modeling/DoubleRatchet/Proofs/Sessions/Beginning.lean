import DoubleRatchet.Proofs.Sessions.Moves

/-! When a party begins a session, and when nothing happens to any. A party that begins a session has the first state of
it; the other has nothing of it yet. -/
namespace DoubleRatchet

variable {c : Correspondence} {w : Setting} {g : Bytes → Standing} {count : Party → Nat} {thread : Thread} {party : Party}
  {record : SessionRecord} {state : SessionState}

namespace Correspondence.Stands

/-! ## Other keys for handshakes -/

theorem stock (stands : c.Stands w g count) (preKeys : Std.ExtTreeMap UInt32 PreKeyRecord)
    (signedPreKeys : Std.ExtTreeMap UInt32 SignedPreKeyRecord) :
    ∃ count', (c.stock party preKeys signedPreKeys).Stands w g count' := by
  have before := stands.ends party
  have here : ((c.ends party).stocked preKeys signedPreKeys).Stands w c.threads g party (count party + 0) :=
    before.spared rfl rfl ⟨before.trusting.denied, before.trusting.saved⟩ rfl rfl
  exact ⟨_, stands.spared (Nat.le_add_right _ 0) here
    (stands.changes rfl rfl (List.append_nil c.sent).symm (fun _ => id) rfl)⟩

theorem idle (stands : c.Stands w g count) {device : Device} (same : device.contents = (c.ends party).device.contents) :
    ∃ count', Correspondence.Stands { c with ends := Function.update c.ends party { c.ends party with device } } w g
      count' := by
  obtain ⟨stores_eq, entropy_eq⟩ := Prod.ext_iff.mp same
  have stores_eq : device.stores = (c.ends party).stores := stores_eq
  have before := stands.ends party
  have trusting := before.trusting
  rw [← stores_eq] at trusting
  have here : Correspondent.Stands { c.ends party with device } w c.threads g party (count party + 0) :=
    before.spared entropy_eq (congrArg Stores.identity stores_eq) trusting
      (congrArg (Stores.recordOrFresh · (c.ends party).peer) stores_eq) rfl
  exact ⟨_, stands.spared (Nat.le_add_right _ 0) here
    (stands.changes rfl rfl (List.append_nil c.sent).symm (fun _ => id) rfl)⟩

/-! ## Beginning -/

/-- A base key that has just been drawn is that of no session before. -/
theorem session_new (stands : c.Stands w g count) (sound : w.Sound) (bound : count party < w.limit party)
    (within : ∀ party, count party ≤ w.limit party) (thread : Thread) (member : thread ∈ c.threads) :
    thread.session ≠ ((w.entropy party).pair (count party)).publicKey.serialize := by
  intro same
  obtain ⟨n, lt, base⟩ := (stands.threads thread member).base
  have keys := PublicKey.serialize_injective same
  rw [base] at keys
  obtain ⟨starter, number⟩ := sound.apart _ _ n _ (Nat.lt_of_lt_of_le lt (within _)) bound keys
  rw [starter] at lt
  omega

theorem unread_of_new (stands : c.Stands w g count) {session : Bytes}
    (new : ∀ thread ∈ c.threads, thread.session ≠ session) (party : Party) : (c.ends party).reads session = [] := by
  refine List.eq_nil_iff_forall_not_mem.mpr fun heading member => ?_
  obtain ⟨_, _, letter, found, _, same, _⟩ := stands.read party session heading member
  obtain ⟨thread, _, _, _, posted⟩ := stands.posted letter (List.mem_of_getElem? found)
  exact new thread posted.member (posted.session.symm.trans same)

end Correspondence.Stands

theorem Offer.verified_eq {offer : Offer} {identity key : PublicKey} (verified : (offer.bundle identity).verified = .ok key) :
    key = offer.signedPreKey.publicKey :=
  (Option.some.inj (PreKeyBundle.verified_eq_ok.mp verified).1).symm

theorem Thread.begun_rung {party : Party} {rung : Rung}
    (member : rung ∈ (thread.begun w (count thread.starter)).rungs (thread.role party)) : party = thread.starter ∧
      rung.key = ((w.entropy party).pair (count party + 1)).publicKey := by
  rcases Party.eq_or_eq_other party thread.starter with rfl | rfl
  · rw [Thread.role_starter] at member
    cases List.mem_singleton.mp member
    exact ⟨rfl, rfl⟩
  · rw [Thread.role_answerer] at member
    cases member

theorem Thread.begun_stands (sound : w.Sound) (offered : w.offered thread.starter.other thread.offer)
    (bound : count thread.starter + 1 < w.limit thread.starter)
    (base : thread.base = (w.entropy thread.starter).pair (count thread.starter)) :
    thread.Stands w (thread.begun w (count thread.starter))
      (Function.update count thread.starter (count thread.starter + 2)) where
  offered := offered
  base := by
    rw [Function.update_self]
    exact ⟨count thread.starter, by omega, base⟩
  keyed := base ▸ sound.drawn _ _ (Nat.lt_of_succ_lt bound)
  climbed := Thread.begun_climbed sound offered bound
  unoffered party rung member offer offered := by
    obtain ⟨rfl, key⟩ := begun_rung member
    rw [key]
    exact sound.unoffered _ offer _ offered bound

namespace Correspondent.Stands

variable {threads : List Thread} {e : Correspondent} {drawn start : Nat}

/-- The party that has begun a session has the first state of it. -/
theorem begun_starter {e' : Correspondent} (before : e.Stands w threads g thread.starter start)
    (new : ∀ other ∈ threads, other.session ≠ thread.session) (unread : e.reads thread.session = [])
    (entropy : e'.entropy = e.entropy.skip 2) (identity : e'.stores.identity = e.stores.identity)
    (trusting : e'.stores.Trusting e'.peer (w.identity thread.starter.other).publicKey) (reads : e'.reads = e.reads)
    (turns : e.record.Turns e'.record state) (stands : state.Stands (thread.terms w) (thread.begun w start) .initiator [])
    (pending : state.pendingPreKey = some (.ofPending thread.pending)) :
    e'.Stands w (thread :: threads) (Function.update g thread.session (thread.begun w start)) thread.starter (start + 2) where
  drawn := entropy.trans (by rw [before.drawn, Entropy.skip_skip])
  identity := identity.trans before.identity
  trusting := trusting
  orderly := turns.orderly
  known kept member := by
    by_cases same : kept.baseKey = state.baseKey
    · exact ⟨thread, List.mem_cons_self, same.trans stands.baseKey⟩
    · obtain ⟨other, begun, session⟩ := before.known kept ((turns.others kept same).mp member)
      exact ⟨other, List.mem_cons_of_mem _ begun, session⟩
  follows other member := by
    rcases List.mem_cons.mp member with rfl | member
    · have unread : e'.reads other.session = [] := reads ▸ unread
      have engaged : state.Engaged w other (other.begun w start) other.starter (e'.reads other.session) := by
        refine ⟨?_, ?_, ?_⟩ <;> rw [Thread.role_starter]
        · exact unread ▸ stands
        · exact List.mem_cons_self
        · exact .inr ⟨rfl, pending⟩
      rw [Function.update_self]
      refine ⟨?_, Nat.succ_pos _, ?_, .engaged state turns.here engaged⟩ <;> rw [Thread.role_starter]
      · rw [unread]
        rfl
      · exact Nat.le_refl _
    · rw [Function.update_of_ne (new other member)]
      refine (before.follows other member).spared (Nat.le_add_right _ 2) (congrFun reads _) fun kept of_other => ?_
      exact turns.others kept fun same => new other member (of_other.symm.trans (same.trans stands.baseKey))

/-- The other party has nothing of the session yet. -/
theorem begun_answerer (before : e.Stands w threads g thread.starter.other drawn)
    (new : ∀ other ∈ threads, other.session ≠ thread.session) (unread : e.reads thread.session = []) :
    e.Stands w (thread :: threads) (Function.update g thread.session (thread.begun w start)) thread.starter.other drawn where
  drawn := before.drawn
  identity := before.identity
  trusting := before.trusting
  orderly := before.orderly
  known kept member := by
    obtain ⟨other, begun, session⟩ := before.known kept member
    exact ⟨other, List.mem_cons_of_mem _ begun, session⟩
  follows other member := by
    rcases List.mem_cons.mp member with rfl | member
    · have none_kept : ∀ kept ∈ e.record.states, kept.baseKey ≠ other.session := by
        intro kept member
        obtain ⟨thread, begun, session⟩ := before.known kept member
        exact session ▸ new thread begun
      rw [Function.update_self]
      refine ⟨?_, Nat.succ_pos _, ?_,
        .awaiting ⟨other.role_answerer, fun answered => answered rfl, unread, none_kept, rfl, rfl⟩⟩ <;>
        rw [Thread.role_answerer]
      · rw [unread]
        rfl
      · exact Nat.zero_le _
    · rw [Function.update_of_ne (new other member)]
      exact before.follows other member

end Correspondent.Stands

namespace Correspondence.Stands

section Begun

variable (stands : c.Stands w g count) (bound : count thread.starter + 1 < w.limit thread.starter)
  (new : ∀ other ∈ c.threads, other.session ≠ thread.session)

include stands bound

/-- The only rung of a new session has a key that has just been drawn. -/
theorem begun_apart {other : Thread} (member : other ∈ c.threads) {rung below : Rung}
    (rung_member : rung ∈ (thread.begun w (count thread.starter)).rungs (thread.role party))
    (below_member : below ∈ (g other.session).rungs (other.role party)) : rung.key ≠ below.key := by
  obtain ⟨rfl, key⟩ := Thread.begun_rung rung_member
  exact stands.apart_of_fresh (Nat.le_succ _) bound key member below below_member

include new

omit stands bound in
theorem begun_old (s : Standing) (other : Thread) (member : other ∈ c.threads) :
    Function.update g thread.session s other.session = g other.session :=
  Function.update_of_ne (new other member) _ _

theorem apart_begun : ∀ a ∈ thread :: c.threads, ∀ b ∈ thread :: c.threads, a.session ≠ b.session → ∀ mover,
    ∀ rung ∈ (Function.update g thread.session (thread.begun w (count thread.starter)) a.session).rungs (a.role mover),
    ∀ other ∈ (Function.update g thread.session (thread.begun w (count thread.starter)) b.session).rungs (b.role mover),
      rung.key ≠ other.key := by
  intro a a_member b b_member differ mover rung rung_member other other_member
  rcases List.mem_cons.mp a_member with rfl | a_begun
  · rcases List.mem_cons.mp b_member with rfl | b_begun
    · exact absurd rfl differ
    · rw [Function.update_self] at rung_member
      rw [begun_old new _ b b_begun] at other_member
      exact stands.begun_apart bound b_begun rung_member other_member
  · rw [begun_old new _ a a_begun] at rung_member
    rcases List.mem_cons.mp b_member with rfl | b_begun
    · rw [Function.update_self] at other_member
      exact fun same => stands.begun_apart bound a_begun other_member rung_member same.symm
    · rw [begun_old new _ b b_begun] at other_member
      exact stands.apart a a_begun b b_begun differ mover rung rung_member other other_member

theorem begun (sound : w.Sound) (offered : w.offered thread.starter.other thread.offer)
    (base : thread.base = (w.entropy thread.starter).pair (count thread.starter)) {device : Device}
    (entropy_eq : device.ambient.entropy = (c.ends thread.starter).entropy.skip 2)
    (became : (c.ends thread.starter).stores.Became device.stores (c.ends thread.starter).peer record
      (w.identity thread.starter.other).publicKey)
    (turns : (c.ends thread.starter).record.Turns record state)
    (state_stands : state.Stands (thread.terms w) (thread.begun w (count thread.starter)) .initiator [])
    (pending : state.pendingPreKey = some (.ofPending thread.pending)) :
    Correspondence.Stands { c with
      ends := Function.update c.ends thread.starter { c.ends thread.starter with device }
      threads := thread :: c.threads } w (Function.update g thread.session (thread.begun w (count thread.starter)))
      (Function.update count thread.starter (count thread.starter + 2)) where
  threads other member := by
    rcases List.mem_cons.mp member with rfl | member
    · rw [Function.update_self]
      exact Thread.begun_stands sound offered bound base
    · rw [begun_old new _ other member]
      exact (stands.threads other member).grown (le_update (Nat.le_add_right _ 2))
  distinct := by
    refine List.nodup_cons.mpr ⟨fun member => ?_, stands.distinct⟩
    obtain ⟨other, begun, same⟩ := List.mem_map.mp member
    exact new other begun same
  apart := stands.apart_begun bound new
  ends other := by
    have unread := stands.unread_of_new new
    have record_eq : Correspondent.record { c.ends thread.starter with device } = record :=
      Stores.recordOrFresh_eq became.kept
    rw [← record_eq] at turns
    dsimp only
    rcases Party.eq_or_eq_other other thread.starter with rfl | rfl
    · rw [Function.update_self, Function.update_self]
      exact (stands.ends thread.starter).begun_starter new (unread _) entropy_eq became.own became.trusting rfl turns
        state_stands pending
    · rw [Function.update_of_ne (Party.other_ne _), Function.update_of_ne (Party.other_ne _)]
      exact (stands.ends thread.starter.other).begun_answerer new (unread _)
  posted letter member := by
    obtain ⟨other, inner, rung, n, posted⟩ := stands.posted letter member
    refine ⟨other, inner, rung, n, List.mem_cons_of_mem _ posted.member, posted.session, ?_⟩
    rw [begun_old new _ other posted.member]
    exact posted.posted
  headings := stands.headings
  read other session heading member := by
    have same : (Function.update c.ends thread.starter { c.ends thread.starter with device } other).reads =
        (c.ends other).reads := by
      rcases Party.eq_or_eq_other other thread.starter with rfl | rfl
      · rw [Function.update_self]
      · rw [Function.update_of_ne (Party.other_ne _)]
    exact stands.read other session heading (same ▸ member)

end Begun

theorem begin (stands : c.Stands w g count) (sound : w.Sound) {offer : Offer} (offered : w.offered party.other offer)
    (before_within : ∀ party, count party ≤ w.limit party)
    (within : ∀ m, ((c.begin party offer).ends party).entropy = (w.entropy party).skip m → m ≤ w.limit party)
    (unevicted : ¬ c.Evicts (.begin party offer)) : ∃ g' count', (c.begin party offer).Stands w g' count' := by
  rcases run : c.accept party offer with ⟨fault | u, device⟩
  · rw [begin_of_error run]
    exact ⟨g, stands.idle (Session.acceptBundle_run_error run)⟩
  have before := stands.ends party
  obtain ⟨made, entropy_eq⟩ := Session.acceptBundle_run run
  obtain ⟨_, signedPreKey, verified, stores_eq⟩ := Stores.acceptBundle_eq_ok.mp made
  cases Offer.verified_eq verified
  have entropy_eq : device.ambient.entropy = (c.ends party).entropy.skip 2 := entropy_eq
  let thread : Thread := ⟨party, (c.ends party).entropy.pair 0, offer⟩
  rw [begin_of_ok run] at within ⊢
  have bound : count thread.starter + 1 < w.limit thread.starter := by
    refine within _ ?_
    simp only [Function.update_self]
    exact entropy_eq.trans (by rw [before.drawn, Entropy.skip_skip])
  have base : thread.base = (w.entropy party).pair (count party) := by
    simp only [thread, before.drawn, Entropy.pair_skip, Nat.add_zero]
  have new : ∀ other ∈ c.threads, other.session ≠ thread.session := by
    rw [Thread.session, base]
    exact stands.session_new sound (Nat.lt_of_succ_lt bound) before_within
  have ratchet : (c.ends party).device.ambient.entropy.pair 1 = (w.entropy party).pair (count party + 1) := by
    change (c.ends party).entropy.pair 1 = _
    rw [before.drawn, Entropy.pair_skip]
  have peer_identity : (c.ends party.other).stores.identity.publicKey = (w.identity party.other).publicKey := by
    rw [(stands.ends party.other).identity]
  rw [ratchet, peer_identity] at stores_eq
  let first : SessionState := (c.ends party).stores.initiatorState (offer.bundle (w.identity party.other).publicKey)
    offer.signedPreKey.publicKey thread.base ((w.entropy party).pair (count party + 1))
  have first_stands : first.Stands (thread.terms w) (thread.begun w (count party)) .initiator [] :=
    Thread.initiatorState_stands before.identity (count party)
  have became := Stores.became_withSession before.trusting ((c.ends party).record.install first)
  have became : (c.ends party).stores.Became device.stores (c.ends party).peer ((c.ends party).record.install first)
      (w.identity party.other).publicKey := stores_eq ▸ became
  have turns := before.orderly.install (fun full => unevicted ⟨by rw [run], full⟩) fun other kept same => by
    obtain ⟨begun, member, session⟩ := before.known other kept
    exact new begun member (session.symm.trans (same.trans first_stands.baseKey))
  have pending : first.pendingPreKey = some (.ofPending thread.pending) := thread.initiatorState_pending ..
  exact ⟨_, _, stands.begun bound new sound offered base entropy_eq became turns first_stands pending⟩

end Correspondence.Stands

end DoubleRatchet
