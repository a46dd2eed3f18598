import Seedchamp.Foundation.FirstSuccess
import Seedchamp.Foundation.Text
import Seedchamp.Session.Announces
import Seedchamp.Tracker.Http

/-!
The announce to the trackers of a torrent: tier after tier and URL after URL until one answers. A URL
that came before is skipped, and the loops compare URLs without regard to case.
-/

namespace Seedchamp.Tracker.Failover
open Foundation.FirstSuccess Foundation.Text Session.Announces Tracker.Http

abbrev Url := List Char

/-! ### The tiers of a torrent -/

structure TrackerRow where
  id : Nat
  tier : Int
  url : Url
  enabled : Bool
  deriving DecidableEq

/-- One more row of the query: into the last tier if it has its number, else into a new tier. -/
def pushTier (tiers : List (Int × List Url)) (row : TrackerRow) : List (Int × List Url) :=
  match tiers.getLast? with
  | some last =>
    if last.1 = row.tier then tiers.dropLast ++ [(last.1, last.2 ++ [row.url])]
    else tiers ++ [(row.tier, [row.url])]
  | none => tiers ++ [(row.tier, [row.url])]

/-- `ORDER BY tier, id`. -/
def rowOrder (a b : TrackerRow) : Bool := a.tier < b.tier || (a.tier = b.tier && a.id ≤ b.id)

def enabledRows (rows : List TrackerRow) : List TrackerRow :=
  (rows.filter TrackerRow.enabled).mergeSort rowOrder

def loadTrackerTiers (rows : List TrackerRow) : List (Int × List Url) :=
  (enabledRows rows).foldl pushTier []

/-- The URLs in the order of the tiers. -/
def urlsOf (tiers : List (Int × List Url)) : List Url := tiers.flatMap Prod.snd

theorem urlsOf_pushTier (tiers : List (Int × List Url)) (row : TrackerRow) :
    urlsOf (pushTier tiers row) = urlsOf tiers ++ [row.url] := by
  have appended : urlsOf (tiers ++ [(row.tier, [row.url])]) = urlsOf tiers ++ [row.url] := by
    rw [urlsOf, List.flatMap_append, List.flatMap_singleton]
    rfl
  rw [pushTier]
  cases latest : tiers.getLast? with
  | none => exact appended
  | some last =>
    dsimp only
    split_ifs
    · have whole := List.dropLast_append_getLast? last latest
      calc
        urlsOf (tiers.dropLast ++ [(last.1, last.2 ++ [row.url])]) =
            urlsOf (tiers.dropLast ++ [last]) ++ [row.url] := by
          simp only [urlsOf, List.flatMap_append, List.flatMap_singleton, List.append_assoc]
        _ = urlsOf tiers ++ [row.url] := by rw [whole]
    · exact appended

/-- Grouping keeps the order of the rows. -/
theorem urlsOf_loadTrackerTiers (rows : List TrackerRow) :
    urlsOf (loadTrackerTiers rows) = (enabledRows rows).map TrackerRow.url := by
  have grouped : ∀ (sorted : List TrackerRow) (tiers : List (Int × List Url)),
      urlsOf (sorted.foldl pushTier tiers) = urlsOf tiers ++ sorted.map TrackerRow.url := by
    intro sorted
    induction sorted with
    | nil => exact fun tiers => (List.append_nil _).symm
    | cons row rest ih =>
      intro tiers
      rw [List.foldl_cons, ih, urlsOf_pushTier, List.append_assoc]
      rfl
  rw [loadTrackerTiers, grouped]
  rfl

/-! ### The announce -/

/-- What trying a URL brings; an error is its text. -/
abbrev Answers := Url → Except String AnnounceResponse

def succeeds (answers : Answers) (url : Url) : Bool :=
  match answers url with
  | .ok r => r.failure.isNone
  | .error _ => false

structure AnnounceOutcome where
  peers : List SocketAddr
  intervalSecs : Nat
  minIntervalSecs : Nat
  ok : Bool
  seeders : Option Nat
  leechers : Option Nat
  lastStatus : Option String
  lastUrl : Option Url
  deriving DecidableEq

namespace AnnounceOutcome

def emptyOk : AnnounceOutcome :=
  ⟨[], ANNOUNCE_DEFAULT_SECS, ANNOUNCE_DEFAULT_MIN_INTERVAL_SECS, true, none, none, none, none⟩

def allFailed (lastUrl : Option Url) (lastStatus : Option String) : AnnounceOutcome :=
  ⟨[], ANNOUNCE_DEFAULT_SECS, ANNOUNCE_DEFAULT_MIN_INTERVAL_SECS, false, none, none, lastStatus, lastUrl⟩

/-- The reply of a tracker. -/
def answered (url : Url) (r : AnnounceResponse) : AnnounceOutcome where
  peers := r.peers
  intervalSecs := clampAnnounceInterval r.interval
  minIntervalSecs := clampMinInterval r.minInterval
  ok := true
  seeders := r.complete
  leechers := r.incomplete
  lastStatus := some "ok"
  lastUrl := some url

end AnnounceOutcome

/-- What the loops compare a URL by. -/
def seenKey (url : Url) : Url := toAsciiLowercase (trim url)

/-- The URLs of a tier that were not tried in it or before it, and all that are taken now. -/
def claimUrls (seen : List Url) : List Url → List Url × List Url
  | [] => ([], seen)
  | url :: rest =>
    if seenKey url = [] ∨ seenKey url ∈ seen then claimUrls seen rest
    else
      let claimed := claimUrls (seenKey url :: seen) rest
      (url :: claimed.1, claimed.2)

/-- `contacted` is history: the URLs that were contacted, the last one first. -/
structure Progress where
  seen : List Url
  lastUrl : Option Url
  lastStatus : Option String
  contacted : List Url

/-- The URLs of one tier. -/
def tryUrls (answers : Answers) (p : Progress) : List Url → Progress × Option AnnounceOutcome
  | [] => (p, none)
  | url :: rest =>
    let p := { p with lastUrl := some url, contacted := url :: p.contacted }
    match answers url with
    | .ok r =>
      match r.failure with
      | none => (p, some (.answered url r))
      | some failure => tryUrls answers { p with lastStatus := some failure } rest
    | .error e => tryUrls answers { p with lastStatus := some e } rest

def tryTiers (answers : Answers) (p : Progress) : List (Int × List Url) → Progress × AnnounceOutcome
  | [] => (p, .allFailed p.lastUrl p.lastStatus)
  | (_, urls) :: rest =>
    let claimed := claimUrls p.seen urls
    match tryUrls answers { p with seen := claimed.2 } claimed.1 with
    | (p, some outcome) => (p, outcome)
    | (p, none) => tryTiers answers p rest

/-- The URLs contacted, in their order, and the outcome. -/
def announceFor (answers : Answers) (tiers : List (Int × List Url)) : List Url × AnnounceOutcome :=
  if tiers.isEmpty then ([], .emptyOk)
  else
    let (p, outcome) := tryTiers answers ⟨[], none, none, []⟩ tiers
    (p.contacted.reverse, outcome)

/-! ### What is contacted -/

def blank (url : Url) : Bool := trim url = []

def candidates (tiers : List (Int × List Url)) : List Url := (urlsOf tiers).filter (fun url => !blank url)

theorem seenKey_eq_nil (url : Url) : seenKey url = [] ↔ blank url = true := by
  rw [seenKey, toAsciiLowercase, List.map_eq_nil_iff, blank, decide_eq_true_eq]

theorem claimUrls_eq (seen urls : List Url) :
    claimUrls seen urls =
      (distinctBy seenKey seen (urls.filter (fun url => !blank url)),
        ((distinctBy seenKey seen (urls.filter (fun url => !blank url))).map seenKey).reverse ++ seen) := by
  induction urls generalizing seen with
  | nil => rfl
  | cons url rest ih =>
    rw [claimUrls]
    by_cases empty : blank url = true
    · rw [if_pos (Or.inl ((seenKey_eq_nil url).2 empty)), ih, List.filter_cons, empty]
      rfl
    · have kept : (!blank url) = true := Bool.not_eq_true' _ ▸ (Bool.not_eq_true _ ▸ empty)
      rw [List.filter_cons, if_pos kept, distinctBy]
      by_cases old : seenKey url ∈ seen
      · rw [if_pos (Or.inr old), if_pos old, ih]
      · rw [if_neg (not_or.2 ⟨fun none => empty ((seenKey_eq_nil url).1 none), old⟩), if_neg old, ih]
        dsimp only
        rw [List.map_cons, List.reverse_cons, List.append_assoc, List.singleton_append]

theorem succeeds_iff (answers : Answers) (url : Url) :
    succeeds answers url = true ↔ ∃ r, answers url = .ok r ∧ r.failure = none := by
  rw [succeeds]
  cases answers url with
  | error e =>
    constructor
    · exact fun clash => absurd clash Bool.false_ne_true
    · rintro ⟨r, clash, -⟩
      cases clash
  | ok r =>
    dsimp only
    rw [Option.isNone_iff_eq_none]
    constructor
    · exact fun fine => ⟨r, rfl, fine⟩
    · rintro ⟨r', same, fine⟩
      rwa [Except.ok.inj same]

/-- A URL that succeeds ends the loop. -/
theorem tryUrls_success (answers : Answers) (p : Progress) (url : Url) (rest : List Url)
    (r : AnnounceResponse) (reply : answers url = .ok r) (fine : r.failure = none) :
    tryUrls answers p (url :: rest) =
      ({ p with lastUrl := some url, contacted := url :: p.contacted }, some (.answered url r)) := by
  rw [tryUrls, reply]
  dsimp only
  rw [fine]

/-- After one that fails it goes on. -/
theorem tryUrls_failure (answers : Answers) (url : Url) (failing : succeeds answers url = false) :
    ∃ status, ∀ (p : Progress) (rest : List Url), tryUrls answers p (url :: rest) =
      tryUrls answers
        ⟨p.seen, some url, some status, url :: p.contacted⟩ rest := by
  rw [succeeds] at failing
  cases answer : answers url with
  | error e =>
    refine ⟨e, fun p rest => ?_⟩
    rw [tryUrls, answer]
  | ok r =>
    rw [answer] at failing
    obtain ⟨failure, told⟩ := Option.isSome_iff_exists.1 (Option.isNone_eq_false_iff.1 failing)
    refine ⟨failure, fun p rest => ?_⟩
    rw [tryUrls, answer]
    dsimp only
    rw [told]

theorem tryUrls_seen (answers : Answers) (p : Progress) (seen urls : List Url) :
    tryUrls answers { p with seen := seen } urls =
      ({ (tryUrls answers p urls).1 with seen := seen }, (tryUrls answers p urls).2) := by
  induction urls generalizing p with
  | nil => rfl
  | cons url rest ih =>
    cases success : succeeds answers url with
    | true =>
      obtain ⟨r, reply, fine⟩ := (succeeds_iff answers url).1 success
      rw [tryUrls_success answers _ url rest r reply fine, tryUrls_success answers p url rest r reply fine]
    | false =>
      obtain ⟨status, goes⟩ := tryUrls_failure answers url success
      rw [goes, goes p rest]
      exact ih ⟨p.seen, some url, some status, url :: p.contacted⟩

theorem tryUrls_append (answers : Answers) (p : Progress) (front back : List Url) :
    ((tryUrls answers p front).2 = none →
      tryUrls answers p (front ++ back) = tryUrls answers (tryUrls answers p front).1 back) ∧
    ((tryUrls answers p front).2 ≠ none →
      tryUrls answers p (front ++ back) = tryUrls answers p front) := by
  induction front generalizing p with
  | nil => exact ⟨fun _ => rfl, fun stopped => absurd rfl stopped⟩
  | cons url rest ih =>
    rw [List.cons_append]
    cases success : succeeds answers url with
    | true =>
      obtain ⟨r, reply, fine⟩ := (succeeds_iff answers url).1 success
      rw [tryUrls_success answers p url rest r reply fine,
        tryUrls_success answers p url (rest ++ back) r reply fine]
      exact ⟨fun clash => (by cases clash), fun _ => rfl⟩
    | false =>
      obtain ⟨status, goes⟩ := tryUrls_failure answers url success
      rw [goes p rest, goes p (rest ++ back)]
      exact ih _

theorem tryUrls_contacted (answers : Answers) (p : Progress) (urls : List Url) :
    (tryUrls answers p urls).1.contacted = (upTo (succeeds answers) urls).reverse ++ p.contacted := by
  induction urls generalizing p with
  | nil => rfl
  | cons url rest ih =>
    rw [upTo]
    cases success : succeeds answers url with
    | true =>
      obtain ⟨r, reply, fine⟩ := (succeeds_iff answers url).1 success
      rw [tryUrls_success answers p url rest r reply fine]
      rfl
    | false =>
      obtain ⟨status, goes⟩ := tryUrls_failure answers url success
      rw [goes, ih, if_neg Bool.false_ne_true, List.reverse_cons, List.append_assoc]
      rfl

/-- Where one succeeds, its reply is the outcome. -/
theorem tryUrls_answered (answers : Answers) (p : Progress) (urls : List Url) (url : Url)
    (r : AnnounceResponse) (tried : url ∈ upTo (succeeds answers) urls) (reply : answers url = .ok r)
    (fine : r.failure = none) : (tryUrls answers p urls).2 = some (.answered url r) := by
  induction urls generalizing p with
  | nil => cases tried
  | cons head rest ih =>
    rw [upTo] at tried
    cases success : succeeds answers head with
    | true =>
      rw [success, if_pos rfl, List.mem_singleton] at tried
      rw [← tried, tryUrls_success answers p url rest r reply fine]
    | false =>
      rw [success, if_neg Bool.false_ne_true] at tried
      obtain ⟨status, goes⟩ := tryUrls_failure answers head success
      rw [goes]
      refine ih _ ((List.mem_cons.1 tried).resolve_left (fun same => ?_))
      rw [same] at reply
      exact Bool.false_ne_true (success.symm.trans ((succeeds_iff answers head).2 ⟨r, reply, fine⟩))

/-- The nested loops do what one loop over all candidates does. -/
theorem tryTiers_eq (answers : Answers) (p : Progress) (tiers : List (Int × List Url)) :
    (tryTiers answers p tiers).1.contacted =
        (tryUrls answers p (distinctBy seenKey p.seen (candidates tiers))).1.contacted ∧
      (tryTiers answers p tiers).2 =
        ((tryUrls answers p (distinctBy seenKey p.seen (candidates tiers))).2).getD
          (.allFailed (tryUrls answers p (distinctBy seenKey p.seen (candidates tiers))).1.lastUrl
            (tryUrls answers p (distinctBy seenKey p.seen (candidates tiers))).1.lastStatus) := by
  induction tiers generalizing p with
  | nil => exact ⟨rfl, rfl⟩
  | cons tier rest ih =>
    obtain ⟨number, urls⟩ := tier
    have split : candidates ((number, urls) :: rest) =
        urls.filter (fun url => !blank url) ++ candidates rest := by
      rw [candidates, urlsOf, List.flatMap_cons, List.filter_append]
      rfl
    rw [tryTiers, split, distinctBy_append, claimUrls_eq]
    dsimp only
    rw [tryUrls_seen]
    generalize distinctBy seenKey p.seen (urls.filter (fun url => !blank url)) = claimed
    have appended := tryUrls_append answers p claimed
      (distinctBy seenKey (claimed.map seenKey ++ p.seen) (candidates rest))
    cases tried : tryUrls answers p claimed with
    | mk p' outcome =>
      rw [tried] at appended
      cases outcome with
      | some outcome =>
        rw [appended.2 (fun clash => by cases clash)]
        exact ⟨rfl, rfl⟩
      | none =>
        rw [appended.1 rfl]
        dsimp only
        have later := ih { p' with seen := (claimed.map seenKey).reverse ++ p.seen }
        have same : distinctBy seenKey ((claimed.map seenKey).reverse ++ p.seen) (candidates rest) =
            distinctBy seenKey (claimed.map seenKey ++ p.seen) (candidates rest) := by
          apply distinctBy_congr
          intro k
          rw [List.mem_append, List.mem_append, List.mem_reverse]
        dsimp only at later
        rw [same, tryUrls_seen] at later
        exact later

theorem announceFor_contacted (answers : Answers) (tiers : List (Int × List Url)) :
    (announceFor answers tiers).1 =
      upTo (succeeds answers) (distinctBy seenKey [] (candidates tiers)) := by
  rw [announceFor]
  cases tiers with
  | nil => rfl
  | cons tier rest =>
    rw [List.isEmpty_cons, if_neg Bool.false_ne_true]
    dsimp only
    rw [(tryTiers_eq answers _ _).1, tryUrls_contacted, List.append_nil, List.reverse_reverse]

theorem announceFor_answered (answers : Answers) (tiers : List (Int × List Url)) (url : Url)
    (r : AnnounceResponse) (tried : url ∈ (announceFor answers tiers).1) (reply : answers url = .ok r)
    (fine : r.failure = none) : (announceFor answers tiers).2 = .answered url r := by
  rw [announceFor_contacted] at tried
  rw [announceFor]
  cases tiers with
  | nil => cases tried
  | cons tier rest =>
    rw [List.isEmpty_cons, if_neg Bool.false_ne_true]
    dsimp only
    rw [(tryTiers_eq answers _ _).2, tryUrls_answered answers _ _ url r tried reply fine, Option.getD_some]

/-! ### Distinct URLs -/

/-- What a URL names. Scheme and host have no case, all else has: the login, the path and the query. -/
structure Endpoint where
  scheme : Option (List Char)
  login : List Char
  host : List Char
  target : List Char
  deriving DecidableEq

/-- The text before and after the first `://`. -/
def splitScheme : List Char → Option (List Char × List Char)
  | [] => none
  | c :: rest =>
    if [':', '/', '/'].isPrefixOf (c :: rest) then some ([], rest.drop 2)
    else (splitScheme rest).map (fun parts => (c :: parts.1, parts.2))

def endsAuthority (c : Char) : Bool := c = '/' || c = '?' || c = '#'

def endpoint (url : Url) : Endpoint :=
  match splitScheme (trim url) with
  | none => ⟨none, [], [], trim url⟩
  | some (scheme, rest) =>
    let authority := rest.takeWhile (fun c => !endsAuthority c)
    { scheme := some (toAsciiLowercase scheme)
      login := (authority.reverse.dropWhile (fun c => c ≠ '@')).reverse
      host := toAsciiLowercase (authority.reverse.takeWhile (fun c => c ≠ '@')).reverse
      target := rest.dropWhile (fun c => !endsAuthority c) }

/-- The key of a URL that names this. -/
def Endpoint.key (e : Endpoint) : Url :=
  ((e.scheme.map (fun scheme => scheme ++ [':', '/', '/'])).getD []) ++ toAsciiLowercase e.login ++ e.host ++
    toAsciiLowercase e.target

theorem splitScheme_eq (text scheme rest : List Char) (split : splitScheme text = some (scheme, rest)) :
    text = scheme ++ [':', '/', '/'] ++ rest := by
  induction text generalizing scheme with
  | nil => cases split
  | cons c text ih =>
    rw [splitScheme] at split
    split_ifs at split with here
    · obtain ⟨after, equal⟩ := List.isPrefixOf_iff_prefix.1 here
      cases split
      rw [List.nil_append]
      cases equal
      rfl
    · obtain ⟨parts, found, equal⟩ := Option.map_eq_some_iff.1 split
      cases equal
      rw [List.cons_append, List.cons_append, ← ih parts.1 (by rw [found])]

/-- The key forgets the case of everything. -/
theorem seenKey_eq (url : Url) : seenKey url = (endpoint url).key := by
  rw [seenKey, endpoint]
  cases split : splitScheme (trim url) with
  | none => rfl
  | some parts =>
    obtain ⟨scheme, rest⟩ := parts
    have whole := splitScheme_eq _ _ _ split
    have authority : rest.takeWhile (fun c => !endsAuthority c) =
        ((rest.takeWhile (fun c => !endsAuthority c)).reverse.dropWhile (fun c => c ≠ '@')).reverse ++
        ((rest.takeWhile (fun c => !endsAuthority c)).reverse.takeWhile (fun c => c ≠ '@')).reverse := by
      rw [← List.reverse_append, List.takeWhile_append_dropWhile, List.reverse_reverse]
    have both : rest = rest.takeWhile (fun c => !endsAuthority c) ++
        rest.dropWhile (fun c => !endsAuthority c) := List.takeWhile_append_dropWhile.symm
    rw [authority] at both
    rw [whole]
    conv_lhs => rw [both]
    simp only [toAsciiLowercase, List.map_append, Endpoint.key, Option.map_some, Option.getD_some,
      List.append_assoc]
    rfl

theorem seenKey_of_endpoint (u v : Url) (same : endpoint u = endpoint v) : seenKey u = seenKey v := by
  rw [seenKey_eq, seenKey_eq, same]

/-! ### Complete failover -/

/-- The distinct URLs that are not blank, in their order, up to the first that answers. -/
def due (answers : Answers) (tiers : List (Int × List Url)) : List Url :=
  upTo (succeeds answers) (distinctBy endpoint [] (candidates tiers))

structure Complete (answers : Answers) (tiers : List (Int × List Url)) (contacted : List Url)
    (outcome : AnnounceOutcome) : Prop where
  order : contacted.Sublist (urlsOf tiers)
  once : (contacted.map endpoint).Nodup
  covered : ∀ url ∈ due answers tiers, ∃ tried ∈ contacted, endpoint tried = endpoint url
  stops : ∀ front url back r, contacted = front ++ url :: back → answers url = .ok r → r.failure = none →
    back = [] ∧ outcome = .answered url r
  failed : outcome.ok = false → ∀ url ∈ urlsOf tiers, blank url = false →
    ∃ tried ∈ contacted, endpoint tried = endpoint url ∧ succeeds answers tried = false

theorem contacted_order (answers : Answers) (tiers : List (Int × List Url)) :
    (announceFor answers tiers).1.Sublist (urlsOf tiers) := by
  rw [announceFor_contacted]
  exact ((upTo_extends _ _).sublist.trans (distinctBy_sublist _ _ _)).trans List.filter_sublist

theorem contacted_keys (answers : Answers) (tiers : List (Int × List Url)) :
    ((announceFor answers tiers).1.map seenKey).Nodup := by
  rw [announceFor_contacted]
  exact (nodup_distinctBy seenKey [] (candidates tiers)).sublist ((upTo_extends _ _).sublist.map _)

theorem contacted_once (answers : Answers) (tiers : List (Int × List Url)) :
    ((announceFor answers tiers).1.map endpoint).Nodup := by
  refine List.Nodup.map_on ?_ (List.Nodup.of_map seenKey (contacted_keys answers tiers))
  intro u first v second same
  exact List.inj_on_of_nodup_map (contacted_keys answers tiers) first second
    (seenKey_of_endpoint u v same)

theorem contacted_distinct (answers : Answers) (tiers : List (Int × List Url)) (url : Url)
    (tried : url ∈ (announceFor answers tiers).1) :
    url ∈ distinctBy endpoint [] (candidates tiers) := by
  rw [announceFor_contacted, ← distinctBy_finer endpoint seenKey seenKey_of_endpoint [] []
    (fun _ old => by cases old)] at tried
  exact (distinctBy_sublist _ _ _).subset ((upTo_extends _ _).subset tried)

theorem announceFor_stops (answers : Answers) (tiers : List (Int × List Url)) (front : List Url)
    (url : Url) (back : List Url) (r : AnnounceResponse)
    (split : (announceFor answers tiers).1 = front ++ url :: back) (reply : answers url = .ok r)
    (fine : r.failure = none) : back = [] ∧ (announceFor answers tiers).2 = .answered url r := by
  have success := (succeeds_iff answers url).2 ⟨r, reply, fine⟩
  constructor
  · rw [announceFor_contacted] at split
    exact upTo_stops _ _ front url back split success
  · refine announceFor_answered answers tiers url r ?_ reply fine
    rw [split]
    exact List.mem_append_right _ List.mem_cons_self

/-- The failover is complete exactly when no two of the URLs that are due differ in case only. -/
theorem failover_complete_iff (answers : Answers) (tiers : List (Int × List Url)) :
    Complete answers tiers (announceFor answers tiers).1 (announceFor answers tiers).2 ↔
      ((due answers tiers).map seenKey).Nodup := by
  have finer := distinctBy_finer endpoint seenKey seenKey_of_endpoint [] []
    (fun _ old => (by cases old)) (candidates tiers)
  have distinct := nodup_distinctBy endpoint [] (candidates tiers)
  constructor
  · intro complete
    refine nodup_of_covered (succeeds answers) seenKey _ _ (contacted_keys answers tiers) distinct.of_map ?_
    intro url isDue
    obtain ⟨tried, member, same⟩ := complete.covered url isDue
    have equal := eq_of_mem_distinctBy endpoint [] (candidates tiers) tried url
      (contacted_distinct answers tiers tried member) ((upTo_extends _ _).subset isDue) same
    exact equal ▸ member
  · intro apart
    have all : (announceFor answers tiers).1 = due answers tiers := by
      rw [announceFor_contacted, ← finer]
      exact upTo_distinctBy _ _ _ _ (fun _ _ old => by cases old) apart
    refine ⟨contacted_order answers tiers, contacted_once answers tiers, ?_,
      announceFor_stops answers tiers, ?_⟩
    · intro url isDue
      exact ⟨url, all ▸ isDue, rfl⟩
    · intro failed url listed kept
      have failing : ∀ tried ∈ due answers tiers, succeeds answers tried = false := by
        intro tried member
        by_contra success
        obtain ⟨r, reply, fine⟩ := (succeeds_iff answers tried).1 (Bool.not_eq_false _ ▸ success)
        rw [announceFor_answered answers tiers tried r (all ▸ member) reply fine] at failed
        cases failed
      have whole : due answers tiers = distinctBy endpoint [] (candidates tiers) :=
        upTo_of_none _ _ failing
      obtain ⟨tried, member, same⟩ := exists_distinctBy endpoint [] (candidates tiers) url
        (List.mem_filter.2 ⟨listed, by rw [kept]; rfl⟩) (fun old => by cases old)
      rw [← whole] at member
      exact ⟨tried, all ▸ member, same, failing tried member⟩

/-- Two passkeys of one tracker. -/
def twoKeys : List (Int × List Url) := [(0, ["http://t/aB/announce".toList, "http://t/Ab/announce".toList])]

/-- The tracker knows the second passkey only. -/
def knowsSecond : Answers := fun url =>
  if url = "http://t/Ab/announce".toList then .ok {} else .ok { failure := some "unregistered" }

/-- The URL that works is never contacted. -/
theorem passkey_passed_over : ¬ ∀ answers tiers,
    Complete answers tiers (announceFor answers tiers).1 (announceFor answers tiers).2 := by
  intro always
  have second : "http://t/Ab/announce".toList ∈ due knowsSecond twoKeys := by decide
  obtain ⟨tried, member, same⟩ := (always knowsSecond twoKeys).covered _ second
  have only : (announceFor knowsSecond twoKeys).1 = ["http://t/aB/announce".toList] := by decide
  rw [only, List.mem_singleton] at member
  rw [member] at same
  exact absurd same (by decide)

end Seedchamp.Tracker.Failover
