import TunnelOperator.Controller.ClusterProofs

/-! A pass over the cluster, stage by stage: until it carries its plan out it changes
neither a peer nor a Secret, so the plan is the one for the cluster the pass found. -/
namespace TunnelOperator.Controller
open Program Resources

/-- The keys a server's Secret lists. -/
def Cluster.listed (c : Cluster) (server : NamespacedName) : ListedKeys :=
  match c.secrets server with
  | some secret => secretKeys secret
  | none => fun _ => ""

/-- Calls that change neither a peer nor a Secret. -/
def Quiet : Call → Prop
  | .updatePeerStatus _ | .createSecret _ | .updateSecret _ => False
  | _ => True

theorem permits_quiet : Permits Quiet := by
  constructor <;> intros <;> trivial

/-- The cluster `d` of a pass that found `c`, before its first write to a peer or Secret. -/
structure Untouched (c d : Cluster) : Prop where
  peers : d.peers = c.peers
  secrets : d.secrets = c.secrets
  specs : SameSpecs c d

theorem Untouched.refl (c : Cluster) : Untouched c c := ⟨rfl, rfl, .refl c⟩

theorem Untouched.step (untouched : Untouched c d) (quiet : Quiet request)
    (effect : Effect d request e) : Untouched c e := by
  have specs := untouched.specs.trans effect.sameSpecs
  cases effect with
  | none => exact untouched
  | peerStatus => exact quiet.elim
  | wireguardStatus => exact ⟨untouched.peers, untouched.secrets, specs⟩
  | created _ => exact quiet.elim
  | updated _ => exact quiet.elim

/-- What the reads of such a pass return. -/
def ReadsOf (c : Cluster) : (request : Call) → Answer request → Prop
  | .getWireguard key, .ok wg => (c.wireguards key).map (·.object) = some wg.object
  | .getWireguard key, .error e => e.isNotFound = true → c.wireguards key = none
  | .getSecret key, .ok secret => c.secrets key = some secret
  | .getSecret key, .error e => e.isNotFound = true → c.secrets key = none
  | .listPeers, .ok items => items.Perm c.peers
  | _, _ => True

theorem Untouched.reads (untouched : Untouched c d)
    (answered : clusterEnv faulty d request answer e) :
    ReadsOf c request answer := by
  unfold ReadsOf
  split
  · rename_i key wg
    rw [← untouched.specs.wireguards, getWireguard_ok answered]
    rfl
  · rename_i key err
    intro missing
    have gone := untouched.specs.wireguards key
    rw [getWireguard_notFound answered missing] at gone
    simpa using gone.symm
  · rw [← untouched.secrets]
    exact getSecret_ok answered
  · intro missing
    rw [← untouched.secrets]
    exact getSecret_notFound answered missing
  · rw [← untouched.peers]
    exact listPeers_ok answered
  · trivial

/-- A program of quiet calls, run before the first write. -/
theorem Untouched.safe {program : Reconciler α} {post : α → Prop} (untouched : Untouched c d)
    (run : Trace (clusterEnv faulty) d program events outcome e)
    (safe : program.Safe (ReadsOf c) Quiet post) :
    Untouched c e ∧ (∀ event ∈ events, Quiet event.1) ∧ ∀ value, outcome = .done value →
      post value :=
  run.safe safe (fun quiet answered holds =>
    ⟨holds.reads answered, holds.step quiet (effect_of_env answered)⟩) untouched

theorem prepare_trace (stored : c.wireguards req = some found)
    (run : Trace (clusterEnv faulty) c (prepare req) events outcome d) :
    Untouched c d ∧ (∀ event ∈ events, Quiet event.1) ∧
      ∀ wg svc, outcome = .done (.rendered wg svc) →
      wg.object = found.object ∧ Renders wg svc := by
  obtain ⟨untouched, quiet, returned⟩ := (Untouched.refl c).safe run <|
    prepare_safe permits_quiet req (by
      rintro ⟨e, missing, honest⟩
      exact absurd (honest missing) (by simp [stored]))
  refine ⟨untouched, quiet, fun wg svc ended => ?_⟩
  obtain ⟨read, renders, -⟩ := returned _ ended wg svc rfl
  have same : (c.wireguards req).map (·.object) = some wg.object := read
  rw [stored] at same
  exact ⟨(Option.some.inj same).symm, renders⟩

theorem listed_eq {current : ListedKeys} (known :
      (∃ secret, ReadsOf c (.getSecret server) (.ok secret) ∧ current = secretKeys secret) ∨
        (∃ e, e.isNotFound = true ∧ ReadsOf c (.getSecret server) (.error e) ∧
          current = fun _ => "")) :
    current = c.listed server := by
  unfold Cluster.listed
  rcases known with ⟨secret, read, rfl⟩ | ⟨e, missing, read, rfl⟩
  · have stored : c.secrets server = some secret := read
    rw [stored]
  · have none : c.secrets server = none := read missing
    rw [none]

/-- reconcilePeers either ends while it reads or carries out the plan for what it read. -/
theorem reconcilePeers_trace (untouched : Untouched c d) (named : wg.key = req)
    (run : Trace (clusterEnv faulty) d (reconcilePeers req wg) events outcome d') :
    (Untouched c d' ∧ (∀ event ∈ events, Quiet event.1) ∧ outcome.value = none) ∨
    ∃ (items : List WireguardPeer) (e : Cluster) (reads rest : List (Event Call Answer)),
      items.Perm c.peers ∧ Untouched c e ∧ (∀ event ∈ reads, Quiet event.1) ∧
        events = reads ++ rest ∧
      Trace (clusterEnv faulty) e (execute (effectivePeerCIDR4 wg)
        (plan wg (c.listed req) (relatedPeers req items))) rest outcome d' := by
  rw [reconcilePeers_eq] at run
  have keysSafe : (admittedKeys wg).Safe (ReadsOf c) Quiet _ :=
    admittedKeys_safe permits_quiet.getSecret wg
  have listSafe : (getWireguardPeers req).Safe (ReadsOf c) Quiet _ :=
    getWireguardPeers_safe permits_quiet.listPeers req
  rcases run.bind_cases with ⟨first, rfl⟩ | ⟨err, first, rfl⟩
    | ⟨current, d1, ev1, rest1, first, run1, rfl⟩
  · obtain ⟨after, quiet, -⟩ := untouched.safe first keysSafe
    exact .inl ⟨after, quiet, rfl⟩
  · obtain ⟨after, quiet, -⟩ := untouched.safe first keysSafe
    exact .inl ⟨after, quiet, rfl⟩
  obtain ⟨after1, quiet1, known⟩ := untouched.safe first keysSafe
  obtain rfl := listed_eq (named ▸ known current rfl)
  have both : ∀ {ev2 : List (Event Call Answer)}, (∀ event ∈ ev2, Quiet event.1) →
      ∀ event ∈ ev1 ++ ev2, Quiet event.1 := by
    intro ev2 quiet2 event member
    rcases List.mem_append.mp member with left | right
    · exact quiet1 event left
    · exact quiet2 event right
  rcases run1.bind_cases with ⟨second, rfl⟩ | ⟨err, second, rfl⟩
    | ⟨peers, d2, ev2, rest2, second, run2, rfl⟩
  · obtain ⟨after, quiet, -⟩ := after1.safe second listSafe
    exact .inl ⟨after, both quiet, rfl⟩
  · obtain ⟨after, quiet, -⟩ := after1.safe second listSafe
    exact .inl ⟨after, both quiet, rfl⟩
  obtain ⟨after2, quiet2, listed⟩ := after1.safe second listSafe
  obtain ⟨items, permuted, rfl⟩ := listed peers rfl
  exact .inr ⟨items, d2, ev1 ++ ev2, rest2, permuted, after2, both quiet2,
    (List.append_assoc _ _ _).symm, run2⟩

/-- How a pass for a stored Wireguard can go: it ends before its plan, while it carries
the plan out, or in the stage that serves the result. -/
inductive PassShape (publicHalf : Wgtypes.Key → Wgtypes.Key) (faulty : Call → Prop) (c : Cluster)
    (req : NamespacedName) (found : Wireguard) :
    List (Event Call Answer) → Outcome ApiError Result → Cluster → Prop where
  | early : Untouched c c' → (∀ event ∈ events, Quiet event.1) →
      PassShape publicHalf faulty c req found events outcome c'
  | stopped (wg : Wireguard) (svc : Service) (items : List WireguardPeer) (d : Cluster) :
      wg.object = found.object → Renders wg svc → items.Perm c.peers → Untouched c d →
      (∀ event ∈ before, Quiet event.1) →
      Trace (clusterEnv faulty) d (execute (effectivePeerCIDR4 found)
        (plan found (c.listed req) (relatedPeers req items))) planned ended c' →
          ended.value = none →
      outcome.value = none → PassShape publicHalf faulty c req found (before ++ planned) outcome c'
  | served (wg : Wireguard) (svc : Service) (items : List WireguardPeer) (d e : Cluster)
      (admitted : List WireguardPeer) :
      wg.object = found.object → Renders wg svc → items.Perm c.peers → Untouched c d →
      (∀ event ∈ before, Quiet event.1) →
      Trace (clusterEnv faulty) d (execute (effectivePeerCIDR4 found)
        (plan found (c.listed req) (relatedPeers req items))) planned (.done admitted) e →
      Trace (clusterEnv faulty) e (serve publicHalf wg svc admitted) after outcome c' →
      PassShape publicHalf faulty c req found (before ++ planned ++ after) outcome c'

theorem pass_shape (stored : c.wireguards req = some found)
    (run : Trace (clusterEnv faulty) c (reconcile publicHalf req) events outcome c') :
    PassShape publicHalf faulty c req found events outcome c' := by
  rw [reconcile_eq] at run
  rcases run.bind_cases with ⟨first, rfl⟩ | ⟨err, first, rfl⟩
    | ⟨prepared, d, before, rest, first, run, rfl⟩
  · obtain ⟨untouched, quiet, -⟩ := prepare_trace stored first
    exact .early untouched quiet
  · obtain ⟨untouched, quiet, -⟩ := prepare_trace stored first
    exact .early untouched quiet
  obtain ⟨untouched, quiet, returned⟩ := prepare_trace stored first
  cases prepared with
  | ended result =>
    cases run with
    | done => exact .early untouched (by simpa using quiet)
    | cut => exact .early untouched (by simpa using quiet)
  | rendered wg svc =>
    obtain ⟨same, renders⟩ := returned wg svc rfl
    have named : wg.key = req := (key_of_wireguard same).trans (c.named stored)
    have append : ∀ {more : List (Event Call Answer)}, (∀ event ∈ more, Quiet event.1) →
        ∀ event ∈ before ++ more, Quiet event.1 := by
      intro more quiet' event member
      rcases List.mem_append.mp member with left | right
      · exact quiet event left
      · exact quiet' event right
    -- The trace of the middle stage, which the last stage may or may not follow.
    have middle : ∀ {events ended e},
        Trace (clusterEnv faulty) d (reconcilePeers req wg) events ended e →
        (Untouched c e ∧ (∀ event ∈ before ++ events, Quiet event.1) ∧ ended.value = none) ∨
        ∃ (items : List WireguardPeer) (d' : Cluster) (reads planned : List (Event Call Answer)),
          items.Perm c.peers ∧ Untouched c d' ∧ (∀ event ∈ reads, Quiet event.1) ∧
          before ++ events = reads ++ planned ∧
          Trace (clusterEnv faulty) d' (execute (effectivePeerCIDR4 found)
            (plan found (c.listed req) (relatedPeers req items))) planned ended e := by
      intro events ended e trace
      rcases reconcilePeers_trace untouched named trace with
        ⟨after, quiet', none⟩ | ⟨items, d', reads, planned, permuted, after, quiet', rfl, carried⟩
      · exact .inl ⟨after, append quiet', none⟩
      · rw [plan_of_object same, cidr_of_object same] at carried
        exact .inr ⟨items, d', before ++ reads, planned, permuted, after, append quiet',
          (List.append_assoc _ _ _).symm, carried⟩
    rcases run.bind_cases with ⟨second, rfl⟩ | ⟨err, second, rfl⟩
      | ⟨admitted, e, ev, rest', second, run', rfl⟩
    · rcases middle second with ⟨after, quiet', -⟩
        | ⟨items, d', reads, planned, permuted, after, quiet', eq, carried⟩
      · exact .early after quiet'
      · exact eq ▸ .stopped wg svc items d' same renders permuted after quiet' carried rfl rfl
    · rcases middle second with ⟨after, quiet', -⟩
        | ⟨items, d', reads, planned, permuted, after, quiet', eq, carried⟩
      · exact .early after quiet'
      · exact eq ▸ .stopped wg svc items d' same renders permuted after quiet' carried rfl rfl
    · rcases middle second with ⟨-, -, none⟩
        | ⟨items, d', reads, planned, permuted, after, quiet', eq, carried⟩
      · simp [Outcome.value] at none
      · rw [← List.append_assoc, eq]
        exact .served wg svc items d' e admitted same renders permuted after quiet' carried run'

end TunnelOperator.Controller
