import HexPulse.Data

/-!
# HexPulse — Settings

The numbers that a board is played with, their defaults, and how they are written as data.
-/

namespace HexPulse

/-- The size of the board and of what stands on it. -/
structure GridSettings (α : Type) where
  radius : Int
  hexSize : α
  nodeHealth : α
  terrainHealth : α
  deriving Repr

/-- The pulse and the health of hearts. -/
structure HeartSettings (α : Type) where
  initialHealth : α
  initialPeriod : α
  /-- the period after a beat is this divided by the health -/
  periodBase : α
  healInterval : α
  healAmount : α
  /-- health lost per second and target in contact -/
  contactDamage : α
  deriving Repr

/-- Damage, reach and timing of what nodes fire. -/
structure WeaponSettings (α : Type) where
  lazorDamage : α
  shockDamage : α
  shockLinkSeconds : α
  beamSpeed : α
  beamArrivalRadius : α
  rocketSpeed : α
  rocketDamage : α
  rocketRadius : α
  rocketMaxDistance : α
  orbitalDelay : α
  orbitalRadius : α
  orbitalDamage : α
  plasmaMaxThreshold : α
  plasmaRadius : α
  plasmaDamageInterval : α
  plasmaDamageScale : α
  targetRadius : α
  deriving Repr

/-- How far nodes see targets. -/
structure TargetingSettings (α : Type) where
  closestRange : Int
  nearbyDefaultRange : α
  nearbyMaxRange : α
  deriving Repr

/-- When and how targets appear. -/
structure SpawnSettings (α : Type) where
  enabled : Bool
  spawnChance : α
  spawnRing : Int
  targetHealth : α
  targetSpeed : α
  deriving Repr

/-- All settings. -/
structure Settings (α : Type) where
  seed : Int
  grid : GridSettings α
  heart : HeartSettings α
  weapons : WeaponSettings α
  targeting : TargetingSettings α
  spawn : SpawnSettings α
  deriving Repr

section
variable {α : Type} [Scalar α]

def GridSettings.standard : GridSettings α where
  radius := 10
  hexSize := 35.0
  nodeHealth := 10.0
  terrainHealth := 10.0

def HeartSettings.standard : HeartSettings α where
  initialHealth := 10.0
  initialPeriod := 10.0
  periodBase := 100.0
  healInterval := 10.0
  healAmount := 1.0
  contactDamage := 1.0

def WeaponSettings.standard : WeaponSettings α where
  lazorDamage := 15.0
  shockDamage := 5.0
  shockLinkSeconds := 0.3
  beamSpeed := 3000.0
  beamArrivalRadius := 50.0
  rocketSpeed := 300.0
  rocketDamage := 50.0
  rocketRadius := 10.0
  rocketMaxDistance := 1000.0
  orbitalDelay := 10.0
  orbitalRadius := 200.0
  orbitalDamage := 5.0
  plasmaMaxThreshold := 10.0
  plasmaRadius := 100.0
  plasmaDamageInterval := 0.5
  plasmaDamageScale := 5.0
  targetRadius := 7.0

def TargetingSettings.standard : TargetingSettings α where
  closestRange := 8
  nearbyDefaultRange := 8.0
  nearbyMaxRange := 10.0

def SpawnSettings.standard : SpawnSettings α where
  enabled := true
  spawnChance := 0.1
  spawnRing := 8
  targetHealth := 30.0
  targetSpeed := 10.0

def Settings.standard : Settings α where
  seed := 0
  grid := .standard
  heart := .standard
  weapons := .standard
  targeting := .standard
  spawn := .standard

end

section
variable {α : Type}

def GridSettings.toData (s : GridSettings α) : Data α :=
  .record [("radius", .int s.radius), ("hex_size", .number s.hexSize),
    ("node_health", .number s.nodeHealth), ("terrain_health", .number s.terrainHealth)]

def HeartSettings.toData (s : HeartSettings α) : Data α :=
  .record [("initial_health", .number s.initialHealth), ("initial_period", .number s.initialPeriod),
    ("period_base", .number s.periodBase), ("heal_interval", .number s.healInterval),
    ("heal_amount", .number s.healAmount), ("contact_damage", .number s.contactDamage)]

def WeaponSettings.toData (s : WeaponSettings α) : Data α :=
  .record [("lazor_damage", .number s.lazorDamage), ("shock_damage", .number s.shockDamage),
    ("shock_link_seconds", .number s.shockLinkSeconds), ("beam_speed", .number s.beamSpeed),
    ("beam_arrival_radius", .number s.beamArrivalRadius), ("rocket_speed", .number s.rocketSpeed),
    ("rocket_damage", .number s.rocketDamage), ("rocket_radius", .number s.rocketRadius),
    ("rocket_max_distance", .number s.rocketMaxDistance), ("orbital_delay", .number s.orbitalDelay),
    ("orbital_radius", .number s.orbitalRadius), ("orbital_damage", .number s.orbitalDamage),
    ("plasma_max_threshold", .number s.plasmaMaxThreshold),
    ("plasma_radius", .number s.plasmaRadius),
    ("plasma_damage_interval", .number s.plasmaDamageInterval),
    ("plasma_damage_scale", .number s.plasmaDamageScale), ("target_radius", .number s.targetRadius)]

def TargetingSettings.toData (s : TargetingSettings α) : Data α :=
  .record [("closest_range", .int s.closestRange),
    ("nearby_default_range", .number s.nearbyDefaultRange),
    ("nearby_max_range", .number s.nearbyMaxRange)]

def SpawnSettings.toData (s : SpawnSettings α) : Data α :=
  .record [("enabled", .bool s.enabled), ("spawn_chance", .number s.spawnChance),
    ("spawn_ring", .int s.spawnRing), ("target_health", .number s.targetHealth),
    ("target_speed", .number s.targetSpeed)]

def Settings.toData (s : Settings α) : Data α :=
  .record [("seed", .int s.seed), ("grid", s.grid.toData), ("heart", s.heart.toData),
    ("weapons", s.weapons.toData), ("targeting", s.targeting.toData), ("spawn", s.spawn.toData)]

end

end HexPulse
