import HornQuery.Engine.Discovery
import Mathlib.Data.List.Forall2
import Mathlib.Data.List.Induction
import Mathlib.Data.List.Nodup

namespace HornQuery

namespace ProviderRegistry

/-! Sorting by priority. -/

theorem priority_trans (first second third : Provider)
    (left : decide (first.priority ≤ second.priority) = true)
    (right : decide (second.priority ≤ third.priority) = true) :
    decide (first.priority ≤ third.priority) = true :=
  decide_eq_true (Nat.le_trans (of_decide_eq_true left) (of_decide_eq_true right))

theorem priority_total (left right : Provider) :
    (decide (left.priority ≤ right.priority) || decide (right.priority ≤ left.priority)) = true := by
  simpa using Nat.le_total left.priority right.priority

theorem pairwise_inOrder (providers : List Provider) :
    (inOrder providers).Pairwise fun left right => left.priority ≤ right.priority :=
  (List.pairwise_mergeSort priority_trans priority_total providers).imp of_decide_eq_true

/-- The sort is stable: providers of one priority keep their order. -/
theorem filter_inOrder (providers : List Provider) (priority : Nat) :
    (inOrder providers).filter (·.priority = priority)
      = providers.filter (·.priority = priority) := by
  have permutation : (inOrder providers).Perm providers := List.mergeSort_perm _ _
  have kept : (providers.filter (·.priority = priority)).Sublist (inOrder providers) := by
    refine List.sublist_mergeSort priority_trans priority_total ?_ List.filter_sublist
    refine List.pairwise_filter.mpr (List.pairwise_of_forall fun left right ofLeft ofRight => ?_)
    exact decide_eq_true (Nat.le_of_eq
      ((of_decide_eq_true ofLeft).trans (of_decide_eq_true ofRight).symm))
  have filtered := kept.filter fun provider => decide (provider.priority = priority)
  rw [List.filter_filter] at filtered
  simp only [Bool.and_self] at filtered
  exact (filtered.eq_of_length (permutation.filter _).length_eq.symm).symm

theorem eq_of_filters {left right : List Provider}
    (ascending : left.Pairwise fun first second => first.priority ≤ second.priority)
    (other : right.Pairwise fun first second => first.priority ≤ second.priority)
    (same : ∀ priority : Nat,
      left.filter (·.priority = priority) = right.filter (·.priority = priority)) :
    left = right := by
  induction left generalizing right with
  | nil =>
      refine (List.eq_nil_iff_forall_not_mem.mpr fun provider member => ?_).symm
      have found : provider ∈ right.filter (·.priority = provider.priority) :=
        List.mem_filter.mpr ⟨member, decide_eq_true rfl⟩
      rw [← same] at found
      cases found
  | cons first rest induction =>
      have mem_iff : ∀ provider, provider ∈ first :: rest ↔ provider ∈ right := fun provider => by
        have agree := congrArg (provider ∈ ·) (same provider.priority)
        simpa using agree
      cases right with
      | nil => exact absurd ((mem_iff first).mp List.mem_cons_self) List.not_mem_nil
      | cons head tail =>
          have atMost : first.priority ≤ head.priority := by
            rcases List.mem_cons.mp ((mem_iff head).mpr List.mem_cons_self) with rfl | later
            · exact Nat.le_refl _
            · exact (List.pairwise_cons.mp ascending).1 head later
          have atLeast : head.priority ≤ first.priority := by
            rcases List.mem_cons.mp ((mem_iff first).mp List.mem_cons_self) with rfl | later
            · exact Nat.le_refl _
            · exact (List.pairwise_cons.mp other).1 first later
          have level : head.priority = first.priority := Nat.le_antisymm atLeast atMost
          have heads := same first.priority
          simp only [List.filter_cons, level, decide_true, if_true, List.cons.injEq] at heads
          obtain ⟨rfl, -⟩ := heads
          refine congrArg (first :: ·) (induction (List.pairwise_cons.mp ascending).2
            (List.pairwise_cons.mp other).2 fun priority => ?_)
          have tails := same priority
          rw [List.filter_cons, List.filter_cons] at tails
          split at tails
          · exact (List.cons.inj tails).2
          · exact tails

theorem inOrder_snoc (providers : List Provider) (provider : Provider) :
    inOrder (inOrder providers ++ [provider]) = inOrder (providers ++ [provider]) := by
  refine eq_of_filters (pairwise_inOrder _) (pairwise_inOrder _) fun priority => ?_
  rw [filter_inOrder, filter_inOrder, List.filter_append, List.filter_append, filter_inOrder]

/-! Providers with the numbers of their registrations. -/

/-- What is asked first: the smaller priority, and of two equal ones the earlier registered. -/
def Before (left right : Provider × Nat) : Prop :=
  left.1.priority < right.1.priority
    ∨ left.1.priority = right.1.priority ∧ left.2 < right.2

theorem Before.asymm {left right : Provider × Nat} (before : Before left right) :
    ¬ Before right left := by
  unfold Before at *
  omega

def ranking (providers : List Provider) : List (Provider × Nat) :=
  providers.zipIdx.mergeSort (List.zipIdxLE fun left right => left.priority ≤ right.priority)

theorem map_ranking (providers : List Provider) :
    (ranking providers).map Prod.fst = inOrder providers :=
  List.mergeSort_zipIdx

theorem mem_ranking {providers : List Provider} {entry : Provider × Nat} :
    entry ∈ ranking providers ↔ entry ∈ providers.zipIdx :=
  List.mem_mergeSort

theorem nodup_ranking (providers : List Provider) : ((ranking providers).map Prod.snd).Nodup := by
  have permutation := (List.mergeSort_perm providers.zipIdx
    (List.zipIdxLE fun left right : Provider => left.priority ≤ right.priority)).map Prod.snd
  rw [ranking, permutation.nodup_iff, List.zipIdx_map_snd]
  exact List.nodup_range'

theorem pairwise_ranking (providers : List Provider) : (ranking providers).Pairwise Before := by
  have sorted := List.pairwise_mergeSort (List.zipIdxLE_trans priority_trans)
    (List.zipIdxLE_total priority_total) providers.zipIdx
  have distinct := List.pairwise_map.mp (nodup_ranking providers)
  refine (sorted.and distinct).imp ?_
  rintro left right ⟨ordered, other⟩
  simp only [List.zipIdxLE, decide_eq_true_eq] at ordered
  unfold Before
  split at ordered
  · split at ordered
    · have numbers := of_decide_eq_true ordered
      omega
    · omega
  · cases ordered

/-! What a resolution has to yield. -/

section

variable {providers : List Provider} {hosts : List Host} {host other : Host}
  {entry : Provider × Nat}

structure Wins (providers : List Provider) (host : Host) (entry : Provider × Nat) : Prop where
  registered : entry ∈ providers.zipIdx
  offers : (entry.1.offer host).isSome
  first : ∀ rival ∈ providers.zipIdx, (rival.1.offer host).isSome →
    rival = entry ∨ Before entry rival

inductive Answers (providers : List Provider) (host : Host) : Option Executable → Prop
  | wins {entry : Provider × Nat} (wins : Wins providers host entry) :
      Answers providers host (entry.1.offer host)
  | declined (declined : ∀ provider ∈ providers, provider.offer host = none) :
      Answers providers host none

/-- The entries of a ranking that are asked: each at most once, and none behind a winner. -/
structure Asks (providers : List Provider) (host : Host) (entries : List (Provider × Nat)) :
    Prop where
  registered : ∀ entry ∈ entries, entry ∈ providers.zipIdx
  once : entries.Nodup
  needed : ∀ entry ∈ entries, ∀ winner, Wins providers host winner → ¬ Before winner entry

structure Discovers (providers : List Provider) (hosts : List Host)
    (resolutions : List Resolution) : Prop where
  answers : List.Forall₂ (fun host resolution =>
    Answers providers host resolution.executable?) hosts resolutions
  asks : ∃ entries, entries.map Prod.fst = resolutions.flatMap Resolution.asked
    ∧ ∀ host ∈ hosts, Asks providers host entries

/-- The answers of providers do not change from one host to the other. -/
def Steady (providers : List Provider) (hosts : List Host) : Prop :=
  ∀ provider ∈ providers, ∀ first ∈ hosts, ∀ second ∈ hosts,
    provider.offer first = provider.offer second

theorem Wins.unique {winner : Provider × Nat} (wins : Wins providers host winner)
    (also : Wins providers host entry) : winner = entry := by
  rcases wins.first entry also.registered also.offers with same | before
  · exact same.symm
  · rcases also.first winner wins.registered wins.offers with same | after
    · exact same
    · exact absurd after before.asymm

theorem Wins.provider_mem (wins : Wins providers host entry) : entry.1 ∈ providers :=
  List.fst_mem_of_mem_zipIdx wins.registered

theorem Steady.wins (steady : Steady providers hosts) (inHosts : host ∈ hosts)
    (otherIn : other ∈ hosts) (wins : Wins providers host entry) :
    Wins providers other entry := by
  have same : ∀ rival ∈ providers.zipIdx, rival.1.offer other = rival.1.offer host :=
    fun rival member =>
      steady rival.1 (List.fst_mem_of_mem_zipIdx member) other otherIn host inHosts
  refine ⟨wins.registered, ?_, fun rival member offers => ?_⟩
  · rw [same entry wins.registered]
    exact wins.offers
  · rw [same rival member] at offers
    exact wins.first rival member offers

theorem Steady.answers {found : Option Executable} (steady : Steady providers hosts)
    (inHosts : host ∈ hosts) (otherIn : other ∈ hosts) (answers : Answers providers host found) :
    Answers providers other found := by
  cases answers with
  | wins wins =>
      rw [steady _ wins.provider_mem host inHosts other otherIn]
      exact .wins (steady.wins inHosts otherIn wins)
  | declined declined =>
      refine .declined fun provider member => ?_
      rw [steady provider member other otherIn host inHosts]
      exact declined provider member

theorem Steady.asks {entries : List (Provider × Nat)} (steady : Steady providers hosts)
    (inHosts : host ∈ hosts) (otherIn : other ∈ hosts) (asks : Asks providers host entries) :
    Asks providers other entries :=
  ⟨asks.registered, asks.once, fun entry member winner wins =>
    asks.needed entry member winner (steady.wins otherIn inHosts wins)⟩

end

/-! Asking the providers in their order. -/

section

variable (host : Host) (providers : List Provider)

theorem ask_cases :
    (∀ provider ∈ providers, provider.offer host = none)
        ∧ ask host providers = (none, providers)
    ∨ ∃ declining winner later, providers = declining ++ winner :: later
        ∧ (∀ provider ∈ declining, provider.offer host = none)
        ∧ (winner.offer host).isSome
        ∧ ask host providers = (winner.offer host, declining ++ [winner]) := by
  induction providers with
  | nil => exact .inl ⟨fun _ member => (List.not_mem_nil member).elim, rfl⟩
  | cons first rest induction =>
      cases offered : first.offer host with
      | some executable =>
          refine .inr ⟨[], first, rest, rfl, fun _ member => (List.not_mem_nil member).elim, ?_, ?_⟩
          · rw [offered]
            rfl
          · rw [ask, offered]
            rfl
      | none =>
          rcases induction with ⟨declined, asked⟩ | ⟨declining, winner, later, rfl, declined,
            offers, asked⟩
          · refine .inl ⟨List.forall_mem_cons.mpr ⟨offered, declined⟩, ?_⟩
            rw [ask, offered, asked]
          · refine .inr ⟨first :: declining, winner, later, rfl,
              List.forall_mem_cons.mpr ⟨offered, declined⟩, offers, ?_⟩
            rw [ask, offered, asked]
            rfl

theorem answers_ask : Answers providers host (ask host (inOrder providers)).1
    ∧ ∃ entries, entries.map Prod.fst = (ask host (inOrder providers)).2
      ∧ Asks providers host entries := by
  have ranked := pairwise_ranking providers
  have distinct : (ranking providers).Nodup := List.Nodup.of_map _ (nodup_ranking providers)
  rcases ask_cases host (inOrder providers) with ⟨declined, asked⟩
    | ⟨declining, winner, later, split, declined, offers, asked⟩
  · rw [asked]
    have all : ∀ provider ∈ providers, provider.offer host = none := fun provider member =>
      declined provider (List.mem_mergeSort.mpr member)
    refine ⟨.declined all, ranking providers, map_ranking providers,
      fun entry member => mem_ranking.mp member, distinct, fun entry _ winner wins => ?_⟩
    have offers := wins.offers
    rw [all winner.1 wins.provider_mem] at offers
    cases offers
  · rw [asked]
    rw [← map_ranking, List.map_eq_append_iff] at split
    obtain ⟨earlier, rest, isRanking, rfl, restIs⟩ := split
    obtain ⟨entry, behind, rfl, rfl, rfl⟩ := List.map_eq_cons_iff.mp restIs
    rw [isRanking] at ranked distinct
    obtain ⟨-, afterEntry, beforeEntry⟩ := List.pairwise_append.mp ranked
    have wins : Wins providers host entry := by
      refine ⟨mem_ranking.mp ?_, offers, fun rival member rivalOffers => ?_⟩
      · rw [isRanking]
        exact List.mem_append_right _ List.mem_cons_self
      · rw [← mem_ranking, isRanking, List.mem_append, List.mem_cons] at member
        rcases member with inEarlier | same | inBehind
        · rw [declined rival.1 (List.mem_map_of_mem inEarlier)] at rivalOffers
          cases rivalOffers
        · exact .inl same
        · exact .inr ((List.pairwise_cons.mp afterEntry).1 rival inBehind)
    refine ⟨.wins wins, earlier ++ [entry], by rw [List.map_append, List.map_singleton], ?_⟩
    have split : earlier ++ entry :: behind = (earlier ++ [entry]) ++ behind := by simp
    refine ⟨fun asked member => mem_ranking.mp ?_, ?_, fun asked member other otherWins => ?_⟩
    · rw [isRanking, split]
      exact List.mem_append_left _ member
    · rw [split] at distinct
      exact (List.nodup_append.mp distinct).1
    · obtain rfl := wins.unique otherWins
      rcases List.mem_append.mp member with inEarlier | isEntry
      · exact (beforeEntry asked inEarlier entry List.mem_cons_self).asymm
      · obtain rfl := List.mem_singleton.mp isEntry
        exact fun before => before.asymm before

end

/-! Runs. -/

inductive Operation where
  | register (provider : Provider)
  | resolve (host : Host)

namespace Operation

def registered? : Operation → Option Provider
  | register provider => some provider
  | resolve _ => none

def host? : Operation → Option Host
  | register _ => none
  | resolve host => some host

end Operation

def perform (registry : ProviderRegistry) : Operation → ProviderRegistry
  | .register provider => registry.register provider
  | .resolve host => (registry.resolve host).registry

def run (operations : List Operation) : ProviderRegistry :=
  operations.foldl perform empty

def registered (operations : List Operation) : List Provider :=
  operations.filterMap Operation.registered?

def hosts (operations : List Operation) : List Host :=
  operations.filterMap Operation.host?

def resolveEach (registry : ProviderRegistry) : List Host → List Resolution
  | [] => []
  | host :: rest =>
      let resolution := registry.resolve host
      resolution :: resolution.registry.resolveEach rest

/-- What a registry keeps of the providers registered and the hosts it was resolved at. -/
structure Keeps (providers : List Provider) (hosts : List Host) (registry : ProviderRegistry) :
    Prop where
  ordered : registry.providers = inOrder providers
  answered : ∀ found, registry.resolved? = some found →
    ∃ host ∈ hosts, Answers providers host found

section

variable {providers : List Provider} {visited : List Host} {registry : ProviderRegistry}

theorem resolve_of_resolved {found : Option Executable} (kept : registry.resolved? = some found)
    (host : Host) : registry.resolve host = ⟨found, [], registry⟩ := by
  rw [resolve, kept]

theorem resolve_of_unresolved (kept : registry.resolved? = none) (host : Host) :
    registry.resolve host = ⟨(ask host registry.providers).1, (ask host registry.providers).2,
      { registry with resolved? := some (ask host registry.providers).1 }⟩ := by
  rw [resolve, kept]

theorem resolveEach_of_resolved {found : Option Executable}
    (kept : registry.resolved? = some found) (further : List Host) :
    registry.resolveEach further = further.map fun _ => ⟨found, [], registry⟩ := by
  induction further with
  | nil => rfl
  | cons host rest induction =>
      rw [resolveEach, resolve_of_resolved kept host, induction]
      rfl

theorem Keeps.register (keeps : Keeps providers visited registry) (provider : Provider) :
    Keeps (providers ++ [provider]) visited (registry.register provider) where
  ordered := by
    rw [ProviderRegistry.register, keeps.ordered]
    exact inOrder_snoc providers provider
  answered := by
    intro found kept
    cases kept

theorem Keeps.resolve (keeps : Keeps providers visited registry) (host : Host) :
    Keeps providers (visited ++ [host]) (registry.resolve host).registry := by
  cases kept : registry.resolved? with
  | some found =>
      rw [resolve_of_resolved kept]
      refine ⟨keeps.ordered, fun found isFound => ?_⟩
      obtain ⟨earlier, member, answers⟩ := keeps.answered found isFound
      exact ⟨earlier, List.mem_append_left _ member, answers⟩
  | none =>
      rw [resolve_of_unresolved kept]
      refine ⟨keeps.ordered, fun found isFound => ?_⟩
      obtain rfl := Option.some.inj isFound
      rw [keeps.ordered]
      exact ⟨host, List.mem_append_right _ List.mem_cons_self, (answers_ask host providers).1⟩

theorem keeps_run (operations : List Operation) :
    Keeps (registered operations) (hosts operations) (run operations) := by
  induction operations using List.reverseRecOn with
  | nil => exact ⟨List.mergeSort_nil.symm, fun _ kept => nomatch kept⟩
  | append_singleton earlier operation induction =>
      have last : run (earlier ++ [operation]) = (run earlier).perform operation := by
        rw [run, List.foldl_append]
        rfl
      rw [last]
      cases operation with
      | register provider =>
          have providers : registered (earlier ++ [.register provider])
              = registered earlier ++ [provider] := List.filterMap_append
          have visited : hosts (earlier ++ [.register provider]) = hosts earlier ++ [] :=
            List.filterMap_append
          rw [providers, visited, List.append_nil]
          exact induction.register provider
      | resolve host =>
          have providers : registered (earlier ++ [.resolve host]) = registered earlier ++ [] :=
            List.filterMap_append
          have visited : hosts (earlier ++ [.resolve host]) = hosts earlier ++ [host] :=
            List.filterMap_append
          rw [providers, visited, List.append_nil]
          exact induction.resolve host

theorem Keeps.discovers (keeps : Keeps providers visited registry) {further : List Host}
    (steady : Steady providers (visited ++ further)) :
    Discovers providers further (registry.resolveEach further) := by
  cases kept : registry.resolved? with
  | some found =>
      obtain ⟨earlier, visitedHost, answers⟩ := keeps.answered found kept
      rw [resolveEach_of_resolved kept]
      refine ⟨?_, [], ?_, fun _ _ => ⟨?_, List.nodup_nil, ?_⟩⟩
      · refine List.forall₂_map_right_iff.mpr (List.forall₂_same.mpr fun host member => ?_)
        exact steady.answers (List.mem_append_left _ visitedHost) (List.mem_append_right _ member)
          answers
      · simp
      · exact fun _ member => (List.not_mem_nil member).elim
      · exact fun _ member => (List.not_mem_nil member).elim
  | none =>
      cases further with
      | nil => exact ⟨.nil, [], rfl, fun _ member => (List.not_mem_nil member).elim⟩
      | cons host rest =>
          obtain ⟨answers, entries, asked, asks⟩ := answers_ask host providers
          have atHost : host ∈ visited ++ host :: rest :=
            List.mem_append_right _ List.mem_cons_self
          rw [resolveEach, resolve_of_unresolved kept, resolveEach_of_resolved rfl, keeps.ordered]
          refine ⟨.cons answers ?_, entries, ?_, fun other member => ?_⟩
          · refine List.forall₂_map_right_iff.mpr (List.forall₂_same.mpr fun other member => ?_)
            exact steady.answers atHost
              (List.mem_append_right _ (List.mem_cons_of_mem _ member)) answers
          · rw [List.flatMap_cons, List.flatMap_map, asked]
            simp
          · exact steady.asks atHost (List.mem_append_right _ member) asks

end

/-- After any run, resolving at further hosts in turn answers with what the first provider
offers that offers anything, and asks every provider at most once for all of them. -/
theorem discovers_run (operations : List Operation) (further : List Host)
    (steady : Steady (registered operations) (hosts operations ++ further)) :
    Discovers (registered operations) further ((run operations).resolveEach further) :=
  (keeps_run operations).discovers steady

def offering (name : String) (priority : Nat) (executable? : Option Executable) : Provider where
  name := name
  priority := priority
  launch? := none
  offer _ := executable?

def bareHost (directory : String) : Host where
  tree := .empty
  environment? _ := none
  launch _ := none
  scriptPath suffix := directory ++ suffix

def severalOperations : List Operation :=
  [.register (offering "fallback" Provider.lowestPriority (some (.ofProgram "swipl"))),
    .resolve (bareHost "/tmp/"),
    .register (offering "missing" 5 none),
    .register (offering "local" 5 (some (.ofProgram "/opt/swipl"))),
    .resolve (bareHost "/var/"),
    .register (offering "late" 5 (some (.ofProgram "/usr/bin/swipl")))]

theorem discovers_run_several :
    Steady (registered severalOperations)
        (hosts severalOperations ++ [bareHost "/tmp/", bareHost "/var/"])
      ∧ Discovers (registered severalOperations) [bareHost "/tmp/", bareHost "/var/"]
        ((run severalOperations).resolveEach [bareHost "/tmp/", bareHost "/var/"])
      ∧ ((run severalOperations).resolveEach [bareHost "/tmp/", bareHost "/var/"]).map
          (fun resolution => (resolution.executable?, resolution.asked.map Provider.name))
        = [(some (.ofProgram "/opt/swipl"), ["missing", "local"]),
          (some (.ofProgram "/opt/swipl"), [])] := by
  have steady : Steady (registered severalOperations)
      (hosts severalOperations ++ [bareHost "/tmp/", bareHost "/var/"]) := by
    unfold Steady
    decide
  refine ⟨steady, discovers_run _ _ steady, ?_⟩
  have inTurn : registered severalOperations = [
      offering "fallback" Provider.lowestPriority (some (.ofProgram "swipl")),
      offering "missing" 5 none,
      offering "local" 5 (some (.ofProgram "/opt/swipl")),
      offering "late" 5 (some (.ofProgram "/usr/bin/swipl"))] := rfl
  have ordered : (run severalOperations).providers = [
      offering "missing" 5 none,
      offering "local" 5 (some (.ofProgram "/opt/swipl")),
      offering "late" 5 (some (.ofProgram "/usr/bin/swipl")),
      offering "fallback" Provider.lowestPriority (some (.ofProgram "swipl"))] := by
    rw [(keeps_run severalOperations).ordered, inTurn]
    simp [inOrder, List.mergeSort, offering, Provider.lowestPriority]
  have unresolved : (run severalOperations).resolved? = none := rfl
  rw [resolveEach, resolve_of_unresolved unresolved, ordered]
  rfl

end ProviderRegistry

end HornQuery
