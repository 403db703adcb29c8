/-!
# Geolocation

`GeoResolver::resolve` maps an address to a `GeoLocation` through an optional GeoIP reader. It
never fails: a missing reader, a failed lookup and every missing field of the record fall back
to the values of `GeoLocation::default` (`resolve_ok`). `calculate_distance` is the haversine
distance, computed on `Float`s as the code computes it on `f64`s.

The GeoIP database is the third-party `maxminddb` reader; the model takes its lookup as a
function that may fail, and keeps only the fields of the `geoip2::City` record `resolve` reads.
-/

namespace RustCore.GeoSidecar

/-- `GeoLocation`. -/
structure GeoLocation where
  country : String
  region : String
  city : String
  latitude : Float
  longitude : Float
  timezone : String

/-- `GeoLocation::default`. -/
def GeoLocation.default : GeoLocation :=
  ⟨"Unknown", "Unknown", "Unknown", 0.0, 0.0, "UTC"⟩

/-- `std::net::IpAddr`. -/
inductive IpAddr
  | V4 (bits : BitVec 32)
  | V6 (bits : BitVec 128)
  deriving DecidableEq, Repr

/-! ## The GeoIP record -/

/-- A `geoip2` record with localized `names` (country, subdivision, city). -/
structure NamedRecord where
  names : Option (List (String × String))

/-- The `location` of a `geoip2::City` record. -/
structure Location where
  latitude : Option Float
  longitude : Option Float
  timeZone : Option String

/-- The fields of `geoip2::City` that `resolve` reads. -/
structure City where
  country : Option NamedRecord
  subdivisions : Option (List NamedRecord)
  city : Option NamedRecord
  location : Option Location

/-- A GeoIP database: `Reader::lookup::<geoip2::City>`. -/
structure Reader where
  lookup : IpAddr → Except String City

/-- `GeoResolver`: the database, when one was found at startup. -/
structure GeoResolver where
  reader : Option Reader

/-- The English name of a record, `"Unknown"` when the record, its names or the English entry
is missing. -/
def englishName (record : Option NamedRecord) : String :=
  ((record.bind NamedRecord.names).bind (List.lookup "en")).getD "Unknown"

/-- `GeoResolver::resolve`. -/
def GeoResolver.resolve (self : GeoResolver) (ip : IpAddr) : Except String GeoLocation :=
  match self.reader with
  | some reader =>
    match reader.lookup ip with
    | .ok city =>
      let country := englishName city.country
      let region := englishName (city.subdivisions.bind List.head?)
      let cityName := englishName city.city
      let (latitude, longitude) :=
        (city.location.map fun loc => (loc.latitude.getD 0.0, loc.longitude.getD 0.0)).getD
          (0.0, 0.0)
      let timezone := (city.location.bind Location.timeZone).getD "UTC"
      .ok ⟨country, region, cityName, latitude, longitude, timezone⟩
    | .error _ => .ok GeoLocation.default
  | none => .ok GeoLocation.default

/-- Resolution never fails. -/
theorem resolve_ok (g : GeoResolver) (ip : IpAddr) : ∃ loc, g.resolve ip = .ok loc := by
  unfold GeoResolver.resolve
  split
  · split <;> exact ⟨_, rfl⟩
  · exact ⟨_, rfl⟩

/-! ## Distance -/

/-- `std::f64::consts::PI`. -/
def pi : Float := 3.141592653589793

/-- `f64::to_radians`. -/
def toRadians (x : Float) : Float := x * (pi / 180.0)

/-- `haversine_distance`, in kilometres; `powi(2)` is a product. -/
def haversineDistance (lat1 lon1 lat2 lon2 : Float) : Float :=
  let earthRadiusKm : Float := 6371.0
  let lat1Rad := toRadians lat1
  let lat2Rad := toRadians lat2
  let deltaLat := toRadians (lat2 - lat1)
  let deltaLon := toRadians (lon2 - lon1)
  let sinLat := Float.sin (deltaLat / 2.0)
  let sinLon := Float.sin (deltaLon / 2.0)
  let a := sinLat * sinLat + Float.cos lat1Rad * Float.cos lat2Rad * (sinLon * sinLon)
  let c := 2.0 * Float.atan2 (Float.sqrt a) (Float.sqrt (1.0 - a))
  earthRadiusKm * c

/-- `GeoResolver::calculate_distance`. -/
def GeoResolver.calculateDistance (_self : GeoResolver) (loc1 loc2 : GeoLocation) : Float :=
  haversineDistance loc1.latitude loc1.longitude loc2.latitude loc2.longitude

end RustCore.GeoSidecar
