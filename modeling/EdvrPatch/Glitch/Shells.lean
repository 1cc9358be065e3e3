import Mathlib

/-! The radii that the furthest camera keeps landing on (`glitch_frame.cpp`), over exact
numbers: an entry is certified as an orbit, or as a camera that is parked. A sighting comes
with its radius, and the frame numbers do not wrap. What is only logged is left out. -/
namespace EdvrPatch.Glitch

def kShells : Nat := 64
def kShellCertifyFrames : Nat := 30
def kShellCertifyDirs : Nat := 3
def kRunawayWindow : Nat := 2000

instance : NeZero kShells := ⟨by decide⟩

structure Vec3 (K : Type) where
  x : K
  y : K
  z : K
  deriving DecidableEq

structure ShellConfig (K : Type) where
  radiusTolerance : K
  parkUnits : K
  dwellFrames : Nat

structure Sighting (K : Type) where
  frameNo : Nat
  pos : Vec3 K
  radius : K

structure Shell (K : Type) where
  radius : K
  lastSeen : Nat := 0
  framesSeen : Nat := 0
  lastDir : Vec3 K
  distinctDirs : Nat := 0
  certified : Bool := false
  dwellRun : Nat := 0
  maxDwell : Nat := 0
  dwellDisqualified : Bool := false
  parkPos : Vec3 K
  parkFrames : Nat := 0
  parked : Bool := false
  certParkPos : Vec3 K

section

variable {K : Type} [Field K] [LinearOrder K]

def Vec3.zero : Vec3 K := ⟨0, 0, 0⟩

def Vec3.dot (a b : Vec3 K) : K := a.x * b.x + a.y * b.y + a.z * b.z

def dist2 (a b : Vec3 K) : K :=
  (a.x - b.x) * (a.x - b.x) + (a.y - b.y) * (a.y - b.y) + (a.z - b.z) * (a.z - b.z)

def kShellDirCos : K := 966 / 1000

def Sighting.dir (c : Sighting K) : Vec3 K :=
  ⟨c.pos.x * (1 / c.radius), c.pos.y * (1 / c.radius), c.pos.z * (1 / c.radius)⟩

def Sighting.Swings (a b : Sighting K) : Prop := a.dir.dot b.dir < kShellDirCos

instance (a b : Sighting K) : Decidable (a.Swings b) := inferInstanceAs (Decidable (_ < _))

def Shell.empty : Shell K :=
  { radius := 0, lastDir := .zero, parkPos := .zero, certParkPos := .zero }

abbrev Shells (K : Type) := Fin kShells → Shell K

variable (config : ShellConfig K)

def findShell (shells : Shells K) (frameNo : Nat) (radius : K) : Option (Fin kShells) :=
  if config.radiusTolerance ≤ 0 then none
  else if radius ≤ 0 then none
  else
    (List.finRange kShells).find? fun i =>
      (shells i).framesSeen ≠ 0 ∧ frameNo - (shells i).lastSeen ≤ kRunawayWindow ∧
        |(shells i).radius - radius| ≤ radius * config.radiusTolerance

/-- Only an entry that is certified excuses a jump by its radius. -/
def radiusIsCertifiedShell (shells : Shells K) (frameNo : Nat) (radius : K) : Bool :=
  ((findShell config shells frameNo radius).map fun i => (shells i).certified).getD false

def positionIsCertifiedPark (shells : Shells K) (frameNo : Nat) (pos : Vec3 K) (radius : K) : Bool :=
  if config.parkUnits ≤ 0 then false
  else ((findShell config shells frameNo radius).map fun i => (shells i).parked &&
    dist2 pos (shells i).certParkPos ≤ config.parkUnits * config.parkUnits).getD false

/-- The first slot that is free, else the one that was seen the longest ago. -/
def victim (shells : Shells K) : Fin kShells :=
  match (List.finRange kShells).find? fun i => (shells i).framesSeen = 0 with
  | some i => i
  | none =>
    (List.finRange kShells).foldl
      (fun v i => if (shells i).lastSeen < (shells v).lastSeen then i else v) 0

/-- The entry of a sighting, or a new one in a slot that is taken from another. -/
def landing (shells : Shells K) (c : Sighting K) : Option (Fin kShells × Shell K) :=
  if config.radiusTolerance ≤ 0 then none
  else if c.radius ≤ 0 then none
  else
    match findShell config shells c.frameNo c.radius with
    | some i => some (i, shells i)
    | none => some (victim shells, { Shell.empty with radius := c.radius })

namespace Shell

def dwellNext (e : Shell K) (frameNo : Nat) : Nat :=
  if e.framesSeen ≠ 0 ∧ e.lastSeen + 1 = frameNo then e.dwellRun + 1 else 1

def dwells (e : Shell K) (frameNo : Nat) : Shell K :=
  let run := e.dwellNext frameNo
  let e := { e with dwellRun := run, maxDwell := max e.maxDwell run }
  if !e.dwellDisqualified ∧ config.dwellFrames ≤ run then
    { e with dwellDisqualified := true, certified := false }
  else e

def turns (e : Shell K) (c : Sighting K) : Shell K :=
  let e := { e with
    lastSeen := c.frameNo, framesSeen := e.framesSeen + 1
    radius := e.radius + (c.radius - e.radius) * (1 / 4) }
  if e.distinctDirs = 0 then { e with lastDir := c.dir, distinctDirs := 1 }
  else if c.dir.dot e.lastDir < kShellDirCos then
    { e with lastDir := c.dir, distinctDirs := e.distinctDirs + 1 }
  else e

def follows (e : Shell K) (pos : Vec3 K) : Shell K :=
  if e.parkFrames ≠ 0 ∧ dist2 pos e.parkPos ≤ config.parkUnits * config.parkUnits then
    { e with parkFrames := e.parkFrames + 1 }
  else { e with parkPos := pos, parkFrames := 1 }

def parks (e : Shell K) : Shell K :=
  if !e.parked ∧ !e.certified ∧ kShellCertifyFrames ≤ e.parkFrames ∧ e.distinctDirs ≤ 1 then
    { e with parked := true, certParkPos := e.parkPos }
  else e

def rests (e : Shell K) (pos : Vec3 K) : Shell K :=
  if 0 < config.parkUnits then (e.follows config pos).parks else e

def orbits (e : Shell K) : Shell K :=
  if !e.certified ∧ !e.parked ∧ !e.dwellDisqualified ∧ kShellCertifyFrames ≤ e.framesSeen ∧
      kShellCertifyDirs ≤ e.distinctDirs then
    { e with certified := true }
  else e

def sighted (e : Shell K) (c : Sighting K) : Shell K :=
  (((e.dwells config c.frameNo).turns c).rests config c.pos).orbits

def seenIn (e : Shell K) (frameNo : Nat) : Prop := e.framesSeen ≠ 0 ∧ e.lastSeen = frameNo

instance (e : Shell K) (frameNo : Nat) : Decidable (e.seenIn frameNo) :=
  inferInstanceAs (Decidable (_ ∧ _))

end Shell

def observeShell (shells : Shells K) (c : Sighting K) : Shells K :=
  match landing config shells c with
  | none => shells
  | some (hit, e) =>
    Function.update shells hit (if e.seenIn c.frameNo then e else e.sighted config c)

/-- The table with the sightings that each entry has counted since it was made, the newest
first. -/
structure Watched (K : Type) where
  shells : Shells K
  seen : Fin kShells → List (Sighting K)

namespace Watched

def observe (w : Watched K) (c : Sighting K) : Watched K where
  shells := observeShell config w.shells c
  seen :=
    match landing config w.shells c with
    | none => w.seen
    | some (hit, e) =>
      let past := if e.framesSeen = 0 then [] else w.seen hit
      Function.update w.seen hit (if e.seenIn c.frameNo then past else c :: past)

def run (calls : List (Sighting K)) : Watched K :=
  calls.foldl (observe config) ⟨fun _ => .empty, fun _ => []⟩

end Watched

def Stays (i : Fin kShells) : Shells K → List (Sighting K) → Prop
  | _, [] => True
  | shells, c :: rest =>
    (∀ e, landing config shells c = some (i, e) → e.framesSeen ≠ 0) ∧
      Stays i (observeShell config shells c) rest

def Stayed (seen : List (Sighting K)) (frames : Nat) : Prop :=
  ∃ first, ∀ k < frames, first + k ∈ seen.map Sighting.frameNo

instance instDecidableStays (i : Fin kShells) : (shells : Shells K) → (calls : List (Sighting K)) →
    Decidable (Stays config i shells calls)
  | _, [] => isTrue trivial
  | shells, c :: rest =>
    have := instDecidableStays i (observeShell config shells c) rest
    have : Decidable (∀ e, landing config shells c = some (i, e) → e.framesSeen ≠ 0) :=
      decidable_of_iff (∀ hit ∈ landing config shells c, hit.1 = i → hit.2.framesSeen ≠ 0)
        ⟨fun all e lands => all (i, e) lands rfl, by rintro all ⟨_, e⟩ lands rfl; exact all e lands⟩
    inferInstanceAs (Decidable (_ ∧ _))

/-- The last sightings, a full certifying run of them, were by the certified point. -/
def Rested (e : Shell K) (seen : List (Sighting K)) : Prop :=
  kShellCertifyFrames ≤ seen.length ∧ ∀ c ∈ seen.take kShellCertifyFrames,
    dist2 c.pos e.certParkPos ≤ config.parkUnits * config.parkUnits

structure Earned (e : Shell K) (seen : List (Sighting K)) : Prop where
  exclusive : ¬(e.certified = true ∧ e.parked = true)
  frames : (seen.map Sighting.frameNo).Nodup
  often : e.certified = true → kShellCertifyFrames ≤ seen.length
  swung : e.certified = true →
    ∃ a b c, List.Sublist [c, b, a] seen ∧ c.Swings b ∧ b.Swings a
  moves : e.certified = true → ¬Stayed seen config.dwellFrames
  revoked : e.dwellDisqualified = true → e.certified = false
  rested : e.parked = true → ∃ then_, then_ <:+ seen ∧ Rested config e then_

/-! What one sighting does to its entry. -/

namespace Shell

variable (e : Shell K) (c : Sighting K)

omit [Field K] [LinearOrder K] in
theorem dwells_eq : ∃ longest disqualified certified,
    e.dwells config c.frameNo = { e with
      dwellRun := e.dwellNext c.frameNo, maxDwell := longest
      dwellDisqualified := disqualified, certified := certified } ∧
      (disqualified = false → e.dwellDisqualified = false ∧ e.dwellNext c.frameNo < config.dwellFrames) ∧
      (certified = true → e.certified = true ∧ disqualified = e.dwellDisqualified) ∧
      (e.dwellDisqualified = true → disqualified = true) := by
  unfold dwells
  generalize e.dwellNext c.frameNo = run
  dsimp only
  split
  · exact ⟨_, _, _, rfl, nofun, nofun, fun _ => rfl⟩
  · rename_i leaves
    refine ⟨_, _, _, rfl, fun clean => ⟨clean, ?_⟩, fun certified => ⟨certified, rfl⟩, id⟩
    simpa [clean] using leaves

theorem turns_eq : ∃ mean dirs last,
    e.turns c = { e with
      lastSeen := c.frameNo, framesSeen := e.framesSeen + 1, radius := mean
      distinctDirs := dirs, lastDir := last } ∧
      (dirs, last) =
        if e.distinctDirs = 0 then (1, c.dir)
        else if c.dir.dot e.lastDir < kShellDirCos then (e.distinctDirs + 1, c.dir)
        else (e.distinctDirs, e.lastDir) := by
  unfold turns
  dsimp only
  split
  · exact ⟨_, _, _, rfl, rfl⟩
  split
  · exact ⟨_, _, _, rfl, rfl⟩
  · exact ⟨_, _, _, rfl, rfl⟩

theorem follows_eq (pos : Vec3 K) : ∃ frames point,
    e.follows config pos = { e with parkFrames := frames, parkPos := point } ∧
      (frames = e.parkFrames + 1 ∧ point = e.parkPos ∧
          dist2 pos e.parkPos ≤ config.parkUnits * config.parkUnits ∨
        frames = 1 ∧ point = pos) := by
  unfold follows
  split
  · rename_i near
    exact ⟨_, _, rfl, .inl ⟨rfl, rfl, near.2⟩⟩
  · exact ⟨_, _, rfl, .inr ⟨rfl, rfl⟩⟩

omit [Field K] [LinearOrder K] in
theorem parks_eq : ∃ parked point, e.parks = { e with parked := parked, certParkPos := point } ∧
    (e.parked = true → parked = true ∧ point = e.certParkPos) ∧
    (e.parked = false → parked = true →
      e.certified = false ∧ kShellCertifyFrames ≤ e.parkFrames ∧ point = e.parkPos) := by
  unfold parks
  split
  · rename_i proven
    obtain ⟨free, uncertified, often, -⟩ := proven
    exact ⟨_, _, rfl, fun parked => by simp [parked] at free,
      fun _ _ => ⟨by simpa using uncertified, often, rfl⟩⟩
  · exact ⟨_, _, rfl, fun parked => ⟨parked, rfl⟩, fun free parked => by simp [free] at parked⟩

theorem rests_eq (pos : Vec3 K) : ∃ frames point parked certain,
    e.rests config pos = { e with
      parkFrames := frames, parkPos := point, parked := parked, certParkPos := certain } ∧
      (¬0 < config.parkUnits ∧ frames = e.parkFrames ∨
        0 < config.parkUnits ∧
          (frames = e.parkFrames + 1 ∧ point = e.parkPos ∧
              dist2 pos e.parkPos ≤ config.parkUnits * config.parkUnits ∨
            frames = 1 ∧ point = pos)) ∧
      (e.parked = true → parked = true ∧ certain = e.certParkPos) ∧
      (e.parked = false → parked = true →
        e.certified = false ∧ kShellCertifyFrames ≤ frames ∧ certain = point) := by
  unfold rests
  split
  · rename_i measures
    obtain ⟨frames, point, follows, moved⟩ := e.follows_eq config pos
    rw [follows]
    obtain ⟨parked, certain, parks, stays, proven⟩ :=
      ({ e with parkFrames := frames, parkPos := point } : Shell K).parks_eq
    rw [parks]
    exact ⟨frames, point, parked, certain, rfl, .inr ⟨measures, moved⟩, stays, proven⟩
  · rename_i unmeasured
    exact ⟨_, _, _, _, rfl, .inl ⟨unmeasured, rfl⟩, fun parked => ⟨parked, rfl⟩,
      fun free parked => by simp [free] at parked⟩

omit [Field K] [LinearOrder K] in
theorem orbits_eq : ∃ certified, e.orbits = { e with certified := certified } ∧
    (certified = true → e.certified = true ∨ e.parked = false ∧ e.dwellDisqualified = false ∧
      kShellCertifyFrames ≤ e.framesSeen ∧ kShellCertifyDirs ≤ e.distinctDirs) := by
  unfold orbits
  split
  · rename_i qualifies
    exact ⟨_, rfl, fun _ => .inr (by simpa using qualifies.2)⟩
  · exact ⟨_, rfl, .inl⟩

theorem sighted_eq : ∃ longest disqualified held mean dirs last frames point parked certain certified,
    e.sighted config c =
      { radius := mean, lastSeen := c.frameNo, framesSeen := e.framesSeen + 1, lastDir := last
        distinctDirs := dirs, certified := certified, dwellRun := e.dwellNext c.frameNo
        maxDwell := longest, dwellDisqualified := disqualified, parkPos := point
        parkFrames := frames, parked := parked, certParkPos := certain } ∧
      (disqualified = false → e.dwellDisqualified = false ∧ e.dwellNext c.frameNo < config.dwellFrames) ∧
      (held = true → e.certified = true ∧ disqualified = e.dwellDisqualified) ∧
      (e.dwellDisqualified = true → disqualified = true) ∧
      ((dirs, last) =
        if e.distinctDirs = 0 then (1, c.dir)
        else if c.dir.dot e.lastDir < kShellDirCos then (e.distinctDirs + 1, c.dir)
        else (e.distinctDirs, e.lastDir)) ∧
      (¬0 < config.parkUnits ∧ frames = e.parkFrames ∨
        0 < config.parkUnits ∧
          (frames = e.parkFrames + 1 ∧ point = e.parkPos ∧
              dist2 c.pos e.parkPos ≤ config.parkUnits * config.parkUnits ∨
            frames = 1 ∧ point = c.pos)) ∧
      (e.parked = true → parked = true ∧ certain = e.certParkPos) ∧
      (e.parked = false → parked = true →
        held = false ∧ kShellCertifyFrames ≤ frames ∧ certain = point) ∧
      (certified = true → held = true ∨ parked = false ∧ disqualified = false ∧
        kShellCertifyFrames ≤ e.framesSeen + 1 ∧ kShellCertifyDirs ≤ dirs) := by
  obtain ⟨longest, disqualified, held, dwells, left, still, revoked⟩ := e.dwells_eq config c
  obtain ⟨mean, dirs, last, turns, counts⟩ := (e.dwells config c.frameNo).turns_eq c
  obtain ⟨frames, point, parked, certain, rests, moved, stays, proven⟩ :=
    ((e.dwells config c.frameNo).turns c).rests_eq config c.pos
  obtain ⟨certified, orbits, earns⟩ :=
    (((e.dwells config c.frameNo).turns c).rests config c.pos).orbits_eq
  have same : e.sighted config c = _ := orbits
  rw [rests] at earns same
  rw [turns] at earns moved stays proven same
  rw [dwells] at earns moved stays proven counts same
  exact ⟨longest, disqualified, held, mean, dirs, last, frames, point, parked, certain, certified,
    same, left, still, revoked, counts, moved, stays, proven, earns⟩

theorem sighted_stays :
    (e.dwellDisqualified = true → (e.sighted config c).dwellDisqualified = true) ∧
      (e.parked = true → (e.sighted config c).parked = true ∧
        (e.sighted config c).certParkPos = e.certParkPos) := by
  obtain ⟨_, _, _, _, _, _, _, _, _, _, _, same, -, -, revoked, -, -, stays, -⟩ := e.sighted_eq config c
  rw [same]
  exact ⟨revoked, stays⟩

end Shell

/-! The sightings that an entry has counted. -/

def counted : List (Sighting K) → List (Sighting K)
  | [] => []
  | c :: past =>
    match counted past with
    | [] => [c]
    | d :: rest => if c.Swings d then c :: d :: rest else d :: rest

/-- In how many frames up to the last one the entry was seen without a gap. -/
def runOf : List (Sighting K) → Nat
  | [] => 0
  | [_] => 1
  | c :: q :: past => if q.frameNo + 1 = c.frameNo then runOf (q :: past) + 1 else 1

theorem counted_sublist (seen : List (Sighting K)) : (counted seen).Sublist seen := by
  induction seen with
  | nil => exact .slnil
  | cons c past ih =>
    unfold counted
    split
    · exact List.sublist_append_left [c] past
    · rename_i d rest same
      rw [same] at ih
      split
      · exact ih.cons_cons c
      · exact ih.cons c

theorem counted_grows (c : Sighting K) (seen : List (Sighting K)) :
    (counted seen).length ≤ (counted (c :: seen)).length := by
  rw [counted]
  split
  · simp_all
  · split <;> simp_all

theorem counted_swings (seen : List (Sighting K)) :
    (counted seen).IsChain fun later earlier => later.Swings earlier := by
  induction seen with
  | nil => exact .nil
  | cons c past ih =>
    unfold counted
    split
    · exact .singleton c
    · rename_i d rest same
      rw [same] at ih
      split
      · rename_i swings
        exact .cons_cons swings ih
      · exact ih

def Ordered (seen : List (Sighting K)) : Prop :=
  seen.Pairwise fun later earlier => earlier.frameNo < later.frameNo

omit [Field K] [LinearOrder K] in
theorem le_runOf {c : Sighting K} {past : List (Sighting K)} {n : Nat}
    (ordered : Ordered (c :: past))
    (all : ∀ k < n, k ≤ c.frameNo ∧ c.frameNo - k ∈ (c :: past).map Sighting.frameNo) :
    n ≤ runOf (c :: past) := by
  induction past generalizing c n with
  | nil =>
    by_contra more
    obtain ⟨le, here⟩ := all 1 (by simpa [runOf] using more)
    simp only [List.map_cons, List.map_nil, List.mem_singleton] at here
    omega
  | cons q past ih =>
    have below : ∀ f ∈ (q :: past).map Sighting.frameNo, f ≤ q.frameNo ∧ f < c.frameNo := by
      intro f inside
      obtain ⟨x, isX, rfl⟩ := List.mem_map.mp inside
      refine ⟨?_, List.rel_of_pairwise_cons ordered isX⟩
      obtain rfl | isX := List.mem_cons.mp isX
      · exact Nat.le_refl _
      · exact Nat.le_of_lt (List.rel_of_pairwise_cons ordered.of_cons isX)
    obtain _ | _ | n := n
    · exact Nat.zero_le _
    · unfold runOf
      split <;> omega
    have next : q.frameNo + 1 = c.frameNo := by
      obtain ⟨le, here⟩ := all 1 (by omega)
      have here := (List.mem_cons.mp here).resolve_left (by omega)
      have := below _ here
      have := below q.frameNo (by simp)
      omega
    rw [runOf, if_pos next]
    have shorter := ih (n := n + 1) ordered.of_cons fun k lt => ?_
    · omega
    obtain ⟨le, here⟩ := all (k + 1) (by omega)
    have here := (List.mem_cons.mp here).resolve_left (by omega)
    have same : c.frameNo - (k + 1) = q.frameNo - k := by omega
    exact ⟨by omega, same ▸ here⟩

omit [Field K] [LinearOrder K] in
theorem not_stayed_cons {c : Sighting K} {past : List (Sighting K)} {n : Nat}
    (ordered : Ordered (c :: past)) (before : past ≠ [] → ¬Stayed past n)
    (short : runOf (c :: past) < n) : ¬Stayed (c :: past) n := by
  rintro ⟨first, all⟩
  have below : ∀ f ∈ past.map Sighting.frameNo, f < c.frameNo := by
    intro f inside
    obtain ⟨x, isX, rfl⟩ := List.mem_map.mp inside
    exact List.rel_of_pairwise_cons ordered isX
  obtain top | top := List.mem_cons.mp (all (n - 1) (by omega))
  · apply Nat.not_le_of_lt short
    apply le_runOf ordered
    intro k lt
    have here := all (n - 1 - k) (by omega)
    rw [show first + (n - 1 - k) = c.frameNo - k by omega] at here
    exact ⟨by omega, here⟩
  · apply before
    · rintro rfl
      cases top
    · refine ⟨first, fun k lt => (List.mem_cons.mp (all k lt)).resolve_left ?_⟩
      have := below _ top
      omega

structure Kept (e : Shell K) (seen : List (Sighting K)) : Prop where
  ordered : Ordered seen
  framesSeen : e.framesSeen = seen.length
  lastSeen : ∀ q ∈ seen.head?, e.lastSeen = q.frameNo
  dwellRun : e.dwellRun = runOf seen
  distinctDirs : e.distinctDirs = (counted seen).length
  lastDir : ∀ q ∈ (counted seen).head?, e.lastDir = q.dir
  measured : ¬0 < config.parkUnits → e.parkFrames = 0
  near : ∀ q ∈ seen.take e.parkFrames, dist2 q.pos e.parkPos ≤ config.parkUnits * config.parkUnits
  followed : e.parkFrames ≤ seen.length
  certified : e.certified = true → e.parked = false ∧ e.dwellDisqualified = false ∧
    kShellCertifyFrames ≤ seen.length ∧ kShellCertifyDirs ≤ (counted seen).length
  moves : e.dwellDisqualified = false → seen ≠ [] → ¬Stayed seen config.dwellFrames
  rested : e.parked = true → ∃ then_, then_ <:+ seen ∧ Rested config e then_

theorem kept_empty (radius : K) : Kept config { Shell.empty with radius := radius } [] := by
  constructor <;> simp [Ordered, Shell.empty, runOf, counted]

variable {config} {e : Shell K} {seen : List (Sighting K)} {c : Sighting K}

theorem Kept.dwellNext (kept : Kept config e seen) :
    e.dwellNext c.frameNo = runOf (c :: seen) := by
  unfold Shell.dwellNext
  rw [kept.framesSeen, kept.dwellRun]
  cases seen with
  | nil => rfl
  | cons q past =>
    rw [kept.lastSeen q rfl]
    simp [runOf]

theorem Kept.counts (kept : Kept config e seen) {dirs : Nat} {last : Vec3 K}
    (counts : (dirs, last) =
      if e.distinctDirs = 0 then (1, c.dir)
      else if c.dir.dot e.lastDir < kShellDirCos then (e.distinctDirs + 1, c.dir)
      else (e.distinctDirs, e.lastDir)) :
    dirs = (counted (c :: seen)).length ∧ ∀ q ∈ (counted (c :: seen)).head?, last = q.dir := by
  have lastDir := kept.lastDir
  rw [kept.distinctDirs] at counts
  unfold counted
  cases had : counted seen with
  | nil => simp_all
  | cons d rest =>
    rw [had] at counts lastDir
    have same := lastDir d rfl
    rw [if_neg (by simp), same] at counts
    change (dirs, last) = if c.Swings d then _ else _ at counts
    dsimp only
    by_cases swings : c.Swings d
    · rw [if_pos swings] at counts ⊢
      simp_all
    · rw [if_neg swings] at counts ⊢
      simp_all

theorem dist2_self [IsStrictOrderedRing K] (pos : Vec3 K) :
    dist2 pos pos ≤ config.parkUnits * config.parkUnits := by
  simp [dist2, mul_self_nonneg]

theorem Kept.parks [IsStrictOrderedRing K] (kept : Kept config e seen) {frames : Nat}
    {point : Vec3 K}
    (moved : ¬0 < config.parkUnits ∧ frames = e.parkFrames ∨
      0 < config.parkUnits ∧
        (frames = e.parkFrames + 1 ∧ point = e.parkPos ∧
            dist2 c.pos e.parkPos ≤ config.parkUnits * config.parkUnits ∨
          frames = 1 ∧ point = c.pos)) :
    (¬0 < config.parkUnits → frames = 0) ∧
      (∀ q ∈ (c :: seen).take frames, dist2 q.pos point ≤ config.parkUnits * config.parkUnits) ∧
      frames ≤ (c :: seen).length := by
  have followed := kept.followed
  obtain ⟨unmeasured, rfl⟩ | ⟨measures, ⟨rfl, rfl, near⟩ | ⟨rfl, rfl⟩⟩ := moved
  · have none := kept.measured unmeasured
    simp [none]
  · refine ⟨fun unmeasured => absurd measures unmeasured, ?_, by simpa using followed⟩
    rw [List.take_succ_cons, List.forall_mem_cons]
    exact ⟨near, kept.near⟩
  · refine ⟨fun unmeasured => absurd measures unmeasured, ?_, by simp⟩
    simpa using dist2_self c.pos

/-- The sighting at which an entry is found to be parked. -/
theorem Kept.parked [IsStrictOrderedRing K] (kept : Kept config e seen) (was : e.parked = false)
    (parked : (e.sighted config c).parked = true) :
    Rested config (e.sighted config c) (c :: seen) := by
  obtain ⟨_, _, _, _, _, _, _, _, _, _, _, same, -, -, -, -, moved, -, proven, -⟩ := e.sighted_eq config c
  rw [same] at parked ⊢
  obtain ⟨-, often, point⟩ := proven was parked
  have parks := kept.parks moved
  refine ⟨often.trans parks.2.2, fun q inside => ?_⟩
  have near := parks.2.1 q (List.take_subset_take_left _ often inside)
  exact point ▸ near

theorem Kept.sighted [IsStrictOrderedRing K] (kept : Kept config e seen)
    (later : ∀ q ∈ seen, q.frameNo < c.frameNo) :
    Kept config (e.sighted config c) (c :: seen) := by
  have ordered : Ordered (c :: seen) := List.pairwise_cons.mpr ⟨later, kept.ordered⟩
  have begins : e.parked = false → (e.sighted config c).parked = true → _ := kept.parked
  obtain ⟨_, _, _, _, _, _, _, _, parked, _, _, same, left, still, -, counts, moved, stays, proven, earns⟩ :=
    e.sighted_eq config c
  rw [same] at begins ⊢
  rw [kept.dwellNext] at left ⊢
  have counts := kept.counts counts
  have parks := kept.parks moved
  exact {
    ordered := ordered
    framesSeen := by simp [kept.framesSeen]
    lastSeen := by simp
    dwellRun := rfl
    distinctDirs := counts.1
    lastDir := counts.2
    measured := parks.1
    near := parks.2.1
    followed := parks.2.2
    certified := by
      intro isCertified
      obtain was | ⟨free, clean, often, turned⟩ := earns isCertified
      · obtain ⟨was, same⟩ := still was
        obtain ⟨free, clean, often, turned⟩ := kept.certified was
        refine ⟨?_, same.trans clean, often.trans (by simp), turned.trans (counted_grows c seen)⟩
        cases isParked : parked with
        | false => rfl
        | true => simp_all
      · exact ⟨free, clean, by simpa [kept.framesSeen] using often, counts.1 ▸ turned⟩
    moves := fun clean _ => not_stayed_cons ordered (kept.moves (left clean).1) (left clean).2
    rested := by
      intro isParked
      cases was : e.parked with
      | true =>
        obtain ⟨then_, inside, rested⟩ := kept.rested was
        unfold Rested at rested ⊢
        rw [(stays was).2]
        exact ⟨then_, inside.trans (List.suffix_cons c seen), rested⟩
      | false => exact ⟨c :: seen, List.suffix_rfl, begins was isParked⟩ }

theorem swung_of_counted (often : kShellCertifyDirs ≤ (counted seen).length) :
    ∃ a b c, List.Sublist [c, b, a] seen ∧ c.Swings b ∧ b.Swings a := by
  have inside := counted_sublist seen
  have chain := counted_swings seen
  match same : counted seen with
  | [] | [_] | [_, _] =>
    rw [same] at often
    simp [kShellCertifyDirs] at often
  | c :: b :: a :: rest =>
    rw [same] at inside chain
    have first : List.Sublist [c, b, a] (c :: b :: a :: rest) := by simp
    rw [List.isChain_cons_cons, List.isChain_cons_cons] at chain
    exact ⟨a, b, c, first.trans inside, chain.1, chain.2.1⟩

theorem Kept.earned (kept : Kept config e seen) : Earned config e seen where
  exclusive := fun both => by simp [(kept.certified both.1).1] at both
  frames := by
    rw [List.Nodup, List.pairwise_map]
    exact kept.ordered.imp fun lt => (Nat.ne_of_lt lt).symm
  often certified := (kept.certified certified).2.2.1
  swung certified := swung_of_counted (kept.certified certified).2.2.2
  moves certified := by
    obtain ⟨-, clean, often, -⟩ := kept.certified certified
    apply kept.moves clean
    rintro rfl
    simp [kShellCertifyFrames] at often
  revoked := by
    intro disqualified
    cases certified : e.certified with
    | false => rfl
    | true => simp [(kept.certified certified).2.1] at disqualified
  rested := kept.rested

/-! The table over its calls. -/

variable (config)

/-- Every entry is kept, and has been seen up to the last frame. -/
structure Watched.Kept (w : Watched K) (now : Nat) : Prop where
  entry : ∀ i, Glitch.Kept config (w.shells i) (w.seen i)
  past : ∀ i, ∀ q ∈ w.seen i, q.frameNo ≤ now

variable {config} {w : Watched K} {now : Nat}

theorem landing_cases {shells : Shells K} {hit : Fin kShells}
    (lands : landing config shells c = some (hit, e)) :
    e = shells hit ∧ e.framesSeen ≠ 0 ∨ e = { Shell.empty with radius := c.radius } := by
  unfold landing at lands
  split at lands
  · cases lands
  rename_i tolerates
  split at lands
  · cases lands
  rename_i measures
  split at lands
  · rename_i i found
    cases lands
    rw [findShell, if_neg tolerates, if_neg measures] at found
    have matches_ := List.find?_some found
    rw [decide_eq_true_iff] at matches_
    exact .inl ⟨rfl, matches_.1⟩
  · cases lands
    exact .inr rfl

theorem Kept.le_lastSeen (kept : Kept config e seen) {q : Sighting K} (inside : q ∈ seen) :
    q.frameNo ≤ e.lastSeen := by
  have ordered := kept.ordered
  have lastSeen := kept.lastSeen
  cases seen with
  | nil => cases inside
  | cons top past =>
    rw [lastSeen top rfl]
    obtain rfl | inside := List.mem_cons.mp inside
    · exact Nat.le_refl _
    · exact Nat.le_of_lt (List.rel_of_pairwise_cons ordered inside)

theorem Watched.Kept.lastSeen_le (kept : w.Kept config now) {i : Fin kShells}
    (used : (w.shells i).framesSeen ≠ 0) : (w.shells i).lastSeen ≤ now := by
  rw [(kept.entry i).framesSeen] at used
  obtain ⟨top, rest, seen⟩ := List.exists_cons_of_length_pos (Nat.pos_of_ne_zero used)
  have top_mem : top ∈ w.seen i := seen ▸ List.mem_cons_self
  rw [(kept.entry i).lastSeen top (seen ▸ rfl)]
  exact kept.past i top top_mem

theorem Watched.Kept.observe [IsStrictOrderedRing K] (kept : w.Kept config now)
    (later : now ≤ c.frameNo) : (w.observe config c).Kept config c.frameNo := by
  have past (i) (q) (inside : q ∈ w.seen i) : q.frameNo ≤ c.frameNo :=
    (kept.past i q inside).trans later
  unfold Watched.observe observeShell
  cases lands : landing config w.shells c with
  | none => exact ⟨kept.entry, past⟩
  | some landed =>
    obtain ⟨hit, e⟩ := landed
    dsimp only
    have entry : Glitch.Kept config e (if e.framesSeen = 0 then [] else w.seen hit) ∧
        ∀ q ∈ (if e.framesSeen = 0 then [] else w.seen hit), q.frameNo ≤ c.frameNo := by
      obtain ⟨rfl, used⟩ | rfl := landing_cases lands
      · rw [if_neg used]
        exact ⟨kept.entry hit, past hit⟩
      · exact ⟨kept_empty config c.radius, nofun⟩
    generalize (if e.framesSeen = 0 then [] else w.seen hit) = seen at entry
    obtain ⟨entry, before⟩ := entry
    have next : Glitch.Kept config (if e.seenIn c.frameNo then e else e.sighted config c)
        (if e.seenIn c.frameNo then seen else c :: seen) := by
      split
      · exact entry
      · rename_i unseen
        apply entry.sighted
        intro q inside
        have used : e.framesSeen ≠ 0 := by
          rw [entry.framesSeen]
          exact List.length_pos_of_mem inside |>.ne'
        have last : e.lastSeen ≤ c.frameNo := by
          obtain ⟨top, rest, rfl⟩ := List.exists_cons_of_ne_nil (List.ne_nil_of_mem inside)
          rw [entry.lastSeen top rfl]
          exact before top (by simp)
        have other : e.lastSeen ≠ c.frameNo := fun same => unseen ⟨used, same⟩
        exact Nat.lt_of_le_of_lt (entry.le_lastSeen inside) (by omega)
    constructor
    · intro i
      by_cases same : i = hit
      · subst same
        simpa using next
      · simpa [same] using kept.entry i
    · intro i q inside
      dsimp only at inside
      by_cases same : i = hit
      · subst same
        rw [Function.update_self] at inside
        split at inside
        · exact before q inside
        · obtain rfl | inside := List.mem_cons.mp inside
          · exact Nat.le_refl _
          · exact before q inside
      · rw [Function.update_of_ne same] at inside
        exact past i q inside

theorem Watched.Kept.parked [IsStrictOrderedRing K] (kept : w.Kept config now) {i : Fin kShells}
    (was : (w.shells i).parked = false) (parked : ((w.observe config c).shells i).parked = true) :
    Rested config ((w.observe config c).shells i) ((w.observe config c).seen i) := by
  unfold Watched.observe observeShell at parked ⊢
  cases lands : landing config w.shells c with
  | none =>
    rw [lands] at parked
    exact absurd (was.symm.trans parked) Bool.false_ne_true
  | some landed =>
    obtain ⟨hit, e⟩ := landed
    rw [lands] at parked
    dsimp only at parked ⊢
    by_cases same : i = hit
    · subst same
      rw [Function.update_self] at parked ⊢
      rw [Function.update_self]
      have before : Glitch.Kept config e (if e.framesSeen = 0 then [] else w.seen i) ∧
          e.parked = false := by
        obtain ⟨rfl, used⟩ | rfl := landing_cases lands
        · rw [if_neg used]
          exact ⟨kept.entry i, was⟩
        · exact ⟨kept_empty config c.radius, rfl⟩
      split
      · rename_i seen
        rw [if_pos seen] at parked
        exact absurd (before.2.symm.trans parked) Bool.false_ne_true
      · rename_i unseen
        rw [if_neg unseen] at parked
        exact before.1.parked before.2 parked
    · rw [Function.update_of_ne same] at parked
      exact absurd (was.symm.trans parked) Bool.false_ne_true

/-- The entries are kept up to a frame that is not after the last sighting. -/
theorem Watched.Kept.run [IsStrictOrderedRing K] (kept : w.Kept config now)
    (calls : List (Sighting K)) (ordered : calls.Pairwise fun a b => a.frameNo ≤ b.frameNo)
    (later : ∀ c ∈ calls, now ≤ c.frameNo) :
    ∃ last, (calls.foldl (Watched.observe config) w).Kept config last ∧
      ∀ bound, now ≤ bound → (∀ c ∈ calls, c.frameNo ≤ bound) → last ≤ bound := by
  induction calls generalizing w now with
  | nil => exact ⟨now, kept, fun _ le _ => le⟩
  | cons c rest ih =>
    obtain ⟨first, ordered⟩ := List.pairwise_cons.mp ordered
    obtain ⟨last, kept, bounded⟩ := ih (kept.observe (later c (by simp))) ordered first
    refine ⟨last, kept, fun bound _ all => ?_⟩
    obtain ⟨here, all⟩ := List.forall_mem_cons.mp all
    exact bounded bound here all

theorem Stays.keeps {i : Fin kShells} (later : List (Sighting K)) (w : Watched K)
    (stays : Stays config i w.shells later) :
    ((w.shells i).dwellDisqualified = true →
        ((later.foldl (Watched.observe config) w).shells i).dwellDisqualified = true) ∧
      ((w.shells i).parked = true →
        ((later.foldl (Watched.observe config) w).shells i).parked = true ∧
        ((later.foldl (Watched.observe config) w).shells i).certParkPos = (w.shells i).certParkPos) := by
  induction later generalizing w with
  | nil => exact ⟨id, fun parked => ⟨parked, rfl⟩⟩
  | cons c rest ih =>
    obtain ⟨slot, stays⟩ := stays
    obtain ⟨disqualified, parked⟩ := ih (w.observe config c) stays
    have step : ((w.shells i).dwellDisqualified = true →
          ((w.observe config c).shells i).dwellDisqualified = true) ∧
        ((w.shells i).parked = true → ((w.observe config c).shells i).parked = true ∧
          ((w.observe config c).shells i).certParkPos = (w.shells i).certParkPos) := by
      unfold Watched.observe observeShell
      cases lands : landing config w.shells c with
      | none => exact ⟨id, fun parked => ⟨parked, rfl⟩⟩
      | some landed =>
        obtain ⟨hit, e⟩ := landed
        by_cases same : i = hit
        · subst same
          have used := slot e lands
          obtain ⟨rfl, -⟩ | rfl := landing_cases lands
          · dsimp only
            rw [Function.update_self]
            split
            · exact ⟨id, fun parked => ⟨parked, rfl⟩⟩
            · exact Shell.sighted_stays config _ c
          · exact absurd rfl used
        · dsimp only
          rw [Function.update_of_ne same]
          exact ⟨id, fun parked => ⟨parked, rfl⟩⟩
    refine ⟨fun was => disqualified (step.1 was), fun was => ?_⟩
    obtain ⟨is, point⟩ := step.2 was
    obtain ⟨is, same⟩ := parked is
    exact ⟨is, same.trans point⟩

/-- What an entry is certified for holds in every run, and its certificates are exclusive and
revocable. It is found to be parked by the sightings up to that one. -/
theorem shells_are_earned [IsStrictOrderedRing K] (config : ShellConfig K)
    (before later : List (Sighting K))
    (ordered : (before ++ later).Pairwise fun a b => a.frameNo ≤ b.frameNo) (i : Fin kShells) :
    Earned config ((Watched.run config (before ++ later)).shells i)
        ((Watched.run config (before ++ later)).seen i) ∧
      (Stays config i (Watched.run config before).shells later →
        (((Watched.run config before).shells i).dwellDisqualified = true →
          ((Watched.run config (before ++ later)).shells i).certified = false) ∧
        (((Watched.run config before).shells i).parked = true →
          ((Watched.run config (before ++ later)).shells i).parked = true ∧
          ((Watched.run config (before ++ later)).shells i).certParkPos =
            ((Watched.run config before).shells i).certParkPos)) ∧
      ∀ c, let w := (Watched.run config (before ++ later)).observe config c
        ((Watched.run config (before ++ later)).shells i).parked = false →
          (w.shells i).parked = true → Rested config (w.shells i) (w.seen i) := by
  have fresh : Watched.Kept config ⟨fun _ => .empty, fun _ => []⟩ 0 :=
    ⟨fun _ => kept_empty config 0, fun _ _ => nofun⟩
  obtain ⟨last, kept, -⟩ := fresh.run _ ordered fun _ _ => Nat.zero_le _
  have earned := (kept.entry i).earned
  refine ⟨earned, fun stays => ?_, fun c was parked => kept.parked was parked⟩
  have keeps := stays.keeps later (Watched.run config before)
  rw [Watched.run, ← List.foldl_append] at keeps
  exact ⟨fun disqualified => earned.revoked (keeps.1 disqualified), keeps.2⟩

/-- A jump after the sightings that the table excuses is on the radius of a certified orbit, or beside a point
where the camera rested, and never both. -/
theorem excuses_are_earned [IsStrictOrderedRing K] (config : ShellConfig K)
    (calls : List (Sighting K)) (ordered : calls.Pairwise fun a b => a.frameNo ≤ b.frameNo)
    (frameNo : Nat) (after : ∀ c ∈ calls, c.frameNo ≤ frameNo) (pos : Vec3 K) (radius : K) :
    let w := Watched.run config calls
    (radiusIsCertifiedShell config w.shells frameNo radius = true →
      positionIsCertifiedPark config w.shells frameNo pos radius = false ∧
      ∃ i, |(w.shells i).radius - radius| ≤ radius * config.radiusTolerance ∧
        (w.shells i).lastSeen ≤ frameNo ∧ frameNo ≤ (w.shells i).lastSeen + kRunawayWindow ∧
        ((w.seen i).map Sighting.frameNo).Nodup ∧ kShellCertifyFrames ≤ (w.seen i).length ∧
        (∃ a b c, List.Sublist [c, b, a] (w.seen i) ∧ c.Swings b ∧ b.Swings a) ∧
        ¬Stayed (w.seen i) config.dwellFrames) ∧
    (positionIsCertifiedPark config w.shells frameNo pos radius = true →
      ∃ i past, dist2 pos (w.shells i).certParkPos ≤ config.parkUnits * config.parkUnits ∧
        past <:+ w.seen i ∧ Rested config (w.shells i) past) := by
  intro w
  have fresh : Watched.Kept config ⟨fun _ => .empty, fun _ => []⟩ 0 :=
    ⟨fun _ => kept_empty config 0, fun _ _ => nofun⟩
  obtain ⟨last, kept, bounded⟩ := fresh.run calls ordered fun _ _ => Nat.zero_le _
  have last_le := bounded frameNo (Nat.zero_le _) after
  have earned (i) : Earned config (w.shells i) (w.seen i) := (kept.entry i).earned
  unfold radiusIsCertifiedShell positionIsCertifiedPark
  cases found : findShell config w.shells frameNo radius with
  | none => simp
  | some i =>
    refine ⟨fun certified => ⟨?_, i, ?_⟩, fun excused => ?_⟩
    · have exclusive := (earned i).exclusive
      simp_all
    · unfold findShell at found
      split_ifs at found
      have matches_ := List.find?_some found
      rw [decide_eq_true_iff] at matches_
      exact ⟨matches_.2.2, (kept.lastSeen_le matches_.1).trans last_le,
        Nat.sub_le_iff_le_add'.mp matches_.2.1, (earned i).frames, (earned i).often certified,
        (earned i).swung certified, (earned i).moves certified⟩
    · split_ifs at excused
      obtain ⟨isParked, near⟩ : (w.shells i).parked = true ∧ _ := by simpa using excused
      obtain ⟨past, inside, rested⟩ := (earned i).rested isParked
      exact ⟨i, past, near, inside, rested⟩

end

/-! One camera, in two directions and then at rest. -/

def swinging : ShellConfig ℚ := { radiusTolerance := 1 / 200, parkUnits := 30, dwellFrames := 8 }

def swings : List (Sighting ℚ) :=
  (List.range 30).map fun k =>
    { frameNo := 2 * k + 1, pos := if k % 2 = 0 then ⟨1000, 0, 0⟩ else ⟨0, 1000, 0⟩, radius := 1000 }

def resting : List (Sighting ℚ) :=
  (List.range 8).map fun k => { frameNo := 3000 + k, pos := ⟨1000, 0, 0⟩, radius := 1000 }

set_option maxRecDepth 100000 in
/-- Two directions are enough to certify, and a stale entry keeps its certificate while the
camera stays on its radius. -/
theorem two_directions_certify_and_stale_stays :
    ((Watched.run swinging swings).shells 0).certified = true ∧
      (∀ c ∈ (Watched.run swinging swings).seen 0, c.pos = ⟨1000, 0, 0⟩ ∨ c.pos = ⟨0, 1000, 0⟩) ∧
      (∀ k < swinging.dwellFrames, 3000 + k ∈ resting.map Sighting.frameNo) ∧
      (∀ c ∈ resting, c.radius = ((Watched.run swinging swings).shells 0).radius) ∧
      ((Watched.run swinging (swings ++ resting)).shells 0).certified = true := by
  decide +kernel

def parking : List (Sighting ℚ) :=
  (List.range 30).map fun k => { frameNo := 2 * k + 1, pos := ⟨1000, 0, 0⟩, radius := 1000 }

def beside : List (Sighting ℚ) :=
  [{ frameNo := 70, pos := ⟨1000, 20, 0⟩, radius := 1000 },
    { frameNo := 72, pos := ⟨0, 1000, 0⟩, radius := 1000 }]

theorem shells_are_earned_swinging :
    Earned swinging ((Watched.run swinging (swings ++ resting)).shells 0)
        ((Watched.run swinging (swings ++ resting)).seen 0) ∧
      ((Watched.run swinging (parking ++ beside)).shells 0).parked = true ∧
      ((Watched.run swinging (parking ++ beside)).shells 0).certParkPos =
        ((Watched.run swinging parking).shells 0).certParkPos :=
  ⟨(shells_are_earned swinging swings resting (by decide +kernel) 0).1,
    ((shells_are_earned swinging parking beside (by decide +kernel) 0).2.1 (by decide +kernel)).2
      (by decide +kernel)⟩

theorem excuses_are_earned_swinging :
    positionIsCertifiedPark swinging (Watched.run swinging swings).shells 70 ⟨0, 0, 1000⟩ 1000 = false ∧
      ∃ i past, dist2 ⟨1000, 20, 0⟩ ((Watched.run swinging parking).shells i).certParkPos ≤ 30 * 30 ∧
        past <:+ (Watched.run swinging parking).seen i ∧
        Rested swinging ((Watched.run swinging parking).shells i) past :=
  ⟨((excuses_are_earned swinging swings (by decide +kernel) 70 (by decide +kernel) ⟨0, 0, 1000⟩ 1000).1
    (by decide +kernel)).1,
    (excuses_are_earned swinging parking (by decide +kernel) 70 (by decide +kernel) ⟨1000, 20, 0⟩ 1000).2
      (by decide +kernel)⟩

end EdvrPatch.Glitch
