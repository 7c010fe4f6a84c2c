import DnsGateway.System.Tracking

/-!
# Queries that share a conntrack key

A retransmitted query has the key of the first one, so both write the same slot of
`conntrack_map`; the first response to come back empties it.
-/

namespace DnsGateway

open Reasoning Bpf

inductive Move where
  | query (time : UInt64) (ok : Helpers) (skb : SkBuff)
  | response (time : UInt64) (ok : Helpers) (skb : SkBuff)

def Move.steps : Move → List Step
  | .query time ok skb => [.tick time, .ingress ok skb]
  | .response time ok skb => [.tick time, .egress ok skb]

def World.play (w : World) (move : Move) : World := w.run move.steps

-- What leaves `dns_gateway_egress`, when the move is a response.
def World.answer (w : World) : Move → List Outcome
  | .query _ _ _ => []
  | .response time ok skb => [(w.step (.tick time)).egress ok skb]

/-- The responses as the pod gets them, in order. -/
def World.answers (w : World) (moves : List Move) : List Outcome :=
  logFrom World.play World.answer w moves

/-- The response was rewritten and comes from CoreDNS. -/
def Restored (cfg : GatewayConfig) (o : Outcome) : Prop :=
  o.natRc = some 0 ∧ o.skb.saddr = cfg.corednsIp

/-! ## Retransmissions -/

def queryTimes : List Move → List UInt64
  | [] => []
  | .query time _ _ :: moves => time :: queryTimes moves
  | .response _ _ _ :: moves => queryTimes moves

def responseTimes : List Move → List UInt64
  | [] => []
  | .query _ _ _ :: moves => responseTimes moves
  | .response time _ _ :: moves => time :: responseTimes moves

/-- Every query of `moves` has the key `k` and is redirected in its turn; every response has the
key `k`, comes from the host resolver, and meets no failing helper. -/
inductive Exchange (k : ConntrackKey) : World → List Move → Prop
  | nil (w : World) : Exchange k w []
  | query {w : World} {time : UInt64} {ok : Helpers} {skb : SkBuff} {moves : List Move}
      (hclock : w.clock ≤ time) (hkey : skb.queryKey = k)
      (hredirected : (dnsGatewayIngress ok time skb w.maps).natRc = some 0)
      (hrest : Exchange k (w.play (.query time ok skb)) moves) :
      Exchange k w (.query time ok skb :: moves)
  | response {w : World} {time : UInt64} {ok : Helpers} {skb : SkBuff} {moves : List Move}
      (hclock : w.clock ≤ time) (hkey : skb.responseKey = k)
      (hresponse : IsResponse w.maps.configMap skb) (hok : AnswerHelpers ok)
      (hdelete : ok .ctDelete = true)
      (hrest : Exchange k (w.play (.response time ok skb)) moves) :
      Exchange k w (.response time ok skb :: moves)

/-- `n` redirected queries with one key and `n` responses to them: the i-th response comes after
the i-th query, and at most 5 seconds after it. -/
structure Retransmissions (k : ConntrackKey) (w : World) (moves : List Move) : Prop where
  exchange : Exchange k w moves
  ordered : ∀ i, (responseTimes (moves.take i)).length ≤ (queryTimes (moves.take i)).length
  timely : List.Forall₂ (fun q r : UInt64 => r.toNat ≤ q.toNat + 5 * 10 ^ 9)
    (queryTimes moves) (responseTimes moves)

/-- Each query has been answered when the next one is sent. -/
def Alternates : List Move → Prop
  | [] => True
  | .query _ _ _ :: .response _ _ _ :: moves => Alternates moves
  | _ => False

/-! ## Moves on the slot -/

theorem World.step_tick {w : World} {time : UInt64} (h : w.clock ≤ time) :
    w.step (.tick time) = { w with clock := time } := by
  rw [World.step, if_pos h]

theorem World.play_query {w : World} {time : UInt64} (h : w.clock ≤ time) (ok : Helpers)
    (skb : SkBuff) :
    w.play (.query time ok skb) =
      { maps := (dnsGatewayIngress ok time skb w.maps).maps, clock := time } := by
  change (w.step (.tick time)).step (.ingress ok skb) = _
  rw [World.step_tick h]
  rfl

theorem World.play_response {w : World} {time : UInt64} (h : w.clock ≤ time) (ok : Helpers)
    (skb : SkBuff) :
    w.play (.response time ok skb) =
      { maps := (dnsGatewayEgress ok time skb w.maps).maps, clock := time } := by
  change (w.step (.tick time)).step (.egress ok skb) = _
  rw [World.step_tick h]
  rfl

theorem World.answer_response {w : World} {time : UInt64} (h : w.clock ≤ time) (ok : Helpers)
    (skb : SkBuff) :
    w.answer (.response time ok skb) = [dnsGatewayEgress ok time skb w.maps] := by
  rw [World.answer, World.step_tick h]
  rfl

-- A redirect fills the slot of its key.
theorem ingress_fills {ok : Helpers} {now : UInt64} {skb : SkBuff} {m : Maps}
    (h : (dnsGatewayIngress ok now skb m).natRc = some 0) :
    (dnsGatewayIngress ok now skb m).maps.conntrackMap.lookup skb.queryKey =
      some { corednsIp := m.configMap.corednsIp, timestampNs := now } := by
  cases (ingress_end ok now skb m).2 with
  | early _ _ _ _ _ _ hnat =>
      rw [hnat] at h
      cases h
  | cluster _ _ _ _ _ _ _ _ hnat =>
      rw [hnat] at h
      cases h
  | insertFailed _ _ _ _ _ _ _ _ _ hnat =>
      rw [hnat] at h
      cases h
  | natFailed _ _ _ _ _ _ hrc _ _ _ hnat =>
      rw [hnat, Option.some.injEq] at h
      omega
  | redirected _ _ _ _ _ _ _ hmaps =>
      rw [hmaps.conntrack, Finmap.lookup_insert]
      rfl

-- A rewritten response empties the slot of its key.
theorem egress_empties {ok : Helpers} {now : UInt64} {skb : SkBuff} {m : Maps}
    (hdelete : ok .ctDelete = true) (h : (dnsGatewayEgress ok now skb m).natRc = some 0) :
    (dnsGatewayEgress ok now skb m).maps.conntrackMap.lookup skb.responseKey = none := by
  have hevents : responseEvents skb (dnsGatewayEgress ok now skb m) =
      [.restored skb.responseKey] := if_pos h
  rcases egress_conntrack hdelete with ⟨-, hct⟩ | ⟨he, -⟩ | ⟨-, he, -⟩
  · rw [hct, Finmap.lookup_erase]
  · rw [hevents] at he
    cases he
  · rw [hevents] at he
    cases he

/-! ## Which retransmissions are restored -/

-- Every response directly follows a query; `filled` says that a query stands in front of `moves`.
def Follow : Bool → List Move → Prop
  | _, [] => True
  | _, .query _ _ _ :: moves => Follow true moves
  | filled, .response _ _ _ :: moves => filled = true ∧ Follow false moves

theorem Follow.length_le {moves : List Move} {filled : Bool} (h : Follow filled moves) :
    (responseTimes moves).length ≤ (queryTimes moves).length + filled.toNat := by
  induction moves generalizing filled with
  | nil => exact Nat.zero_le _
  | cons move moves ih =>
      cases move with
      | query time ok skb =>
          have hle := ih (show Follow true moves from h)
          rw [responseTimes, queryTimes, List.length_cons]
          rw [Bool.toNat_true] at hle
          omega
      | response time ok skb =>
          have hle := ih h.2
          rw [responseTimes, queryTimes, List.length_cons, h.1, Bool.toNat_true]
          rw [Bool.toNat_false] at hle
          omega

-- With as many queries as responses, none of the queries is left over.
theorem Follow.alternates : ∀ {moves : List Move}, Follow false moves →
    (queryTimes moves).length ≤ (responseTimes moves).length → Alternates moves
  | [], _, _ => trivial
  | .response _ _ _ :: _, h, _ => absurd h.1 Bool.false_ne_true
  | [.query _ _ _], _, hlen => absurd hlen (Nat.not_succ_le_zero 0)
  | .query _ _ _ :: .query _ _ _ :: moves, h, hlen => by
      have hle := Follow.length_le (show Follow true moves from h)
      rw [queryTimes, queryTimes, responseTimes, responseTimes, List.length_cons,
        List.length_cons] at hlen
      rw [Bool.toNat_true] at hle
      omega
  | .query _ _ _ :: .response _ _ _ :: moves, h, hlen => by
      apply Follow.alternates (show Follow false moves from h.2)
      rw [queryTimes, queryTimes, responseTimes, responseTimes, List.length_cons,
        List.length_cons] at hlen
      omega

theorem answers_cons (w : World) (move : Move) (moves : List Move) :
    w.answers (move :: moves) = w.answer move ++ (w.play move).answers moves := rfl

-- A response is rewritten only from a slot that the move in front of it has filled.
theorem Exchange.follow {k : ConntrackKey} {w : World} {moves : List Move} (h : Exchange k w moves)
    {filled : Bool} (hslot : filled = false → w.maps.conntrackMap.lookup k = none)
    (hrestored : ∀ o ∈ w.answers moves, o.natRc = some 0) : Follow filled moves := by
  induction h generalizing filled with
  | nil => trivial
  | @query w time ok skb moves hclock hkey hredirected hrest ih =>
      apply ih
      · intro hfalse
        cases hfalse
      · exact hrestored
  | @response w time ok skb moves hclock hkey hresponse hok hdelete hrest ih =>
      rw [answers_cons, World.answer_response hclock] at hrestored
      have hnat := hrestored _ List.mem_cons_self
      constructor
      · cases filled with
        | true => rfl
        | false =>
            have hleft := (egress_answers time hok hresponse).2 fun v hv => by
              rw [hkey, hslot rfl] at hv
              cases hv
            rw [hleft.1] at hnat
            cases hnat
      · apply ih
        · intro _
          rw [World.play_response hclock, ← hkey]
          exact egress_empties hdelete hnat
        · intro o ho
          exact hrestored o (List.mem_cons_of_mem _ ho)

-- In an alternating exchange each response finds the entry of the query in front of it.
theorem Exchange.restored {k : ConntrackKey} : ∀ {moves : List Move} {w : World},
    Exchange k w moves →
    List.Forall₂ (fun q r : UInt64 => r.toNat ≤ q.toNat + 5 * 10 ^ 9)
      (queryTimes moves) (responseTimes moves) →
    Alternates moves → ∀ o ∈ w.answers moves, Restored w.maps.configMap o
  | [], _, _, _, _ => fun o ho => absurd ho List.not_mem_nil
  | .response _ _ _ :: _, _, _, _, halt => halt.elim
  | [.query _ _ _], _, _, _, halt => halt.elim
  | .query _ _ _ :: .query _ _ _ :: _, _, _, _, halt => halt.elim
  | .query sent okq skbq :: .response received okr skbr :: moves, w, h, htimely, halt => by
      rcases h with _ | ⟨hclock, hkey, hredirected, hrest⟩
      rcases hrest with _ | _ | ⟨hclock', hkey', hresponse, hok, hdelete, hrest⟩
      rcases htimely with _ | ⟨hintime, htimely⟩
      have ih := Exchange.restored hrest htimely halt
      rw [answers_cons, answers_cons, World.answer_response hclock', World.play_response hclock']
      rw [World.play_response hclock'] at ih
      rw [World.play_query hclock] at hclock' hresponse ih ⊢
      have hsame : (dnsGatewayEgress okr received skbr
          (dnsGatewayIngress okq sent skbq w.maps).maps).maps.configMap = w.maps.configMap := by
        rw [(egress_settings _ _ _ _).1, (ingress_settings _ _ _ _).1]
      have hentry := ingress_fills hredirected
      rw [hkey, ← hkey'] at hentry
      have hanswer := (egress_answers received hok hresponse).1 _ hentry
        ((elapsed_le_ttl_iff hclock').mpr hintime)
      intro o ho
      rcases List.mem_cons.mp ho with ho | ho
      · rw [ho]
        exact hanswer
      · have hlater := ih o ho
        rw [hsame] at hlater
        exact hlater

/-- All responses to retransmitted queries come back from CoreDNS exactly when each query was
answered before the next one was sent: a response leaves the slot of its key empty, and the next
response finds an entry only if another query has come in between. -/
theorem retransmissions_restored_iff {k : ConntrackKey} {w : World} {moves : List Move}
    (h : Retransmissions k w moves) :
    (∀ o ∈ w.answers moves, Restored w.maps.configMap o) ↔ Alternates moves := by
  constructor
  · intro hrestored
    have hlen := h.timely.length_eq
    have hfollow : Follow true moves := by
      apply h.exchange.follow
      · intro hfalse
        cases hfalse
      · exact fun o ho => (hrestored o ho).1
    -- The first move is a query, whatever the slot held before.
    apply Follow.alternates _ (Nat.le_of_eq hlen)
    cases moves with
    | nil => trivial
    | cons move moves =>
        cases move with
        | query time ok skb => exact hfollow
        | response time ok skb => exact absurd (h.ordered 1) (Nat.not_succ_le_zero 0)
  · exact h.exchange.restored h.timely

/-! ## Two queries, then two responses -/

theorem World.play_settings (w : World) (move : Move) :
    (w.play move).maps.configMap = w.maps.configMap ∧
      (w.play move).maps.suffixRules = w.maps.suffixRules := by
  cases move with
  | query time ok skb => exact ingress_settings ok _ skb w.maps
  | response time ok skb => exact egress_settings ok _ skb w.maps

-- A response that is not rewritten shows the pod the host resolver.
theorem Exchange.unrestored {k : ConntrackKey} {w : World} {moves : List Move}
    (h : Exchange k w moves) : ∀ o ∈ w.answers moves, o.natRc ≠ some 0 →
      o.skb.saddr = w.maps.configMap.hostResolverIp := by
  induction h with
  | nil => exact fun o ho => absurd ho List.not_mem_nil
  | @query w time ok skb moves hclock hkey hredirected hrest ih =>
      rw [(w.play_settings _).1] at ih
      exact ih
  | @response w time ok skb moves hclock hkey hresponse hok hdelete hrest ih =>
      rw [(w.play_settings _).1] at ih
      rw [answers_cons, World.answer_response hclock]
      intro o ho hnat
      rcases List.mem_cons.mp ho with ho | ho
      · subst ho
        have hanswer := egress_answers time hok hresponse
        have hleft := hanswer.2 fun v hv hfresh => hnat (hanswer.1 v hv hfresh).1
        rw [hleft.2]
        exact hresponse.saddr
      · exact ih o ho hnat

/-- The sample query (`true`) and the sample response to it (`false`), sent at the given times. -/
def shortMoves (turns : List (Bool × UInt64)) : List Move :=
  turns.map fun (isQuery, time) =>
    if isQuery then .query time .allOk shortQuery else .response time .allOk shortResponse

theorem shortMoves_exchange {turns : List (Bool × UInt64)} {w : World}
    (hconfig : w.maps.configMap = sampleConfig actionHostResolve)
    (hrules : w.maps.suffixRules = .empty)
    (htimes : List.Pairwise (· ≤ ·) (w.clock :: turns.map Prod.snd)) :
    Exchange shortQuery.queryKey w (shortMoves turns) := by
  induction turns generalizing w with
  | nil => exact Exchange.nil w
  | cons turn turns ih =>
      rcases turn with ⟨isQuery, time⟩
      rw [List.map_cons, List.pairwise_cons] at htimes
      have hclock := htimes.1 time List.mem_cons_self
      cases isQuery with
      | true =>
          apply Exchange.query hclock rfl (shortQuery_redirected time hconfig hrules).nat
          apply ih
          · rw [(w.play_settings _).1, hconfig]
          · rw [(w.play_settings _).2, hrules]
          · rw [World.play_query hclock]
            exact htimes.2
      | false =>
          apply Exchange.response hclock shortResponse_key _ answerHelpers_allOk rfl
          · apply ih
            · rw [(w.play_settings _).1, hconfig]
            · rw [(w.play_settings _).2, hrules]
            · rw [World.play_response hclock]
              exact htimes.2
          · rw [hconfig]
            exact shortResponse_isResponse actionHostResolve

/-- A query and its response, then the retransmission and its response: both responses are
restored. -/
theorem alternating_restored :
    Retransmissions shortQuery.queryKey sampleWorld (shortMoves
      [(true, 0), (false, 1000000000), (true, 2000000000), (false, 3000000000)]) ∧
    ∀ o ∈ sampleWorld.answers (shortMoves
        [(true, 0), (false, 1000000000), (true, 2000000000), (false, 3000000000)]),
      Restored (sampleConfig actionHostResolve) o := by
  have hmoves : Retransmissions shortQuery.queryKey sampleWorld (shortMoves
      [(true, 0), (false, 1000000000), (true, 2000000000), (false, 3000000000)]) := by
    constructor
    · exact shortMoves_exchange rfl rfl (by decide)
    · intro i
      rcases i with _ | _ | _ | _ | i
      · exact Nat.le_refl _
      · exact Nat.zero_le _
      · exact Nat.le_refl _
      · exact Nat.le_succ _
      · rw [List.take_of_length_le (by change 4 ≤ i + 4; omega)]
        exact Nat.le_refl _
    · exact .cons (by decide) (.cons (by decide) .nil)
  exact ⟨hmoves, (retransmissions_restored_iff hmoves).mpr trivial⟩

/-- A query and its retransmission, then the two responses: the second response reaches the pod
from the host resolver's address. -/
theorem second_response_unrestored :
    Retransmissions shortQuery.queryKey sampleWorld (shortMoves
      [(true, 0), (true, 1000000000), (false, 2000000000), (false, 3000000000)]) ∧
    ∃ o ∈ sampleWorld.answers (shortMoves
        [(true, 0), (true, 1000000000), (false, 2000000000), (false, 3000000000)]),
      o.skb.saddr = (sampleConfig actionHostResolve).hostResolverIp ∧
        ¬ Restored (sampleConfig actionHostResolve) o := by
  have hexchange : Exchange shortQuery.queryKey sampleWorld (shortMoves
      [(true, 0), (true, 1000000000), (false, 2000000000), (false, 3000000000)]) :=
    shortMoves_exchange rfl rfl (by decide)
  constructor
  · constructor
    · exact hexchange
    · intro i
      rcases i with _ | _ | _ | _ | i
      · exact Nat.le_refl _
      · exact Nat.zero_le _
      · exact Nat.zero_le _
      · exact Nat.le_succ _
      · rw [List.take_of_length_le (by change 4 ≤ i + 4; omega)]
        exact Nat.le_refl _
    · exact .cons (by decide) (.cons (by decide) .nil)
  · by_contra hall
    have hfollow : Follow false (shortMoves
        [(true, 0), (true, 1000000000), (false, 2000000000), (false, 3000000000)]) := by
      apply hexchange.follow
      · exact fun _ => rfl
      · intro o ho
        by_contra hnat
        exact hall ⟨o, ho, hexchange.unrestored o ho hnat, fun h => hnat h.1⟩
    exact absurd hfollow.2.1 Bool.false_ne_true

end DnsGateway
