import Mathlib.Tactic.Common

namespace TheCargo.LeadFields

inductive Section
  | shipper
  | location
  | vehicle
  | shipment
  deriving DecidableEq

structure FieldSpec where
  key : String
  section_ : Section
  label : String
  itemName : String
  labels : List String
  deriving DecidableEq

def leadFieldCatalog : List FieldSpec := [
  ⟨"first_name", .shipper, "FIRST NAME", "customer_first_name",
    ["first name", "fname", "given name", "full name", "customer name", "shipper name", "contact name", "name"]⟩,
  ⟨"last_name", .shipper, "LAST NAME", "customer_last_name",
    ["last name", "lname", "surname", "family name"]⟩,
  ⟨"phone", .shipper, "PHONE", "customer_phone",
    ["phone number", "contact number", "phone no", "telephone", "cell phone", "mobile", "phone", "tel", "cell"]⟩,
  ⟨"email", .shipper, "EMAIL", "customer_email",
    ["email address", "e-mail address", "e-mail", "email"]⟩,
  ⟨"pickup_city", .location, "PICKUP CITY", "origin_city",
    ["moving from city", "pickup city", "pick up city", "origin city", "from city", "pickup location",
     "origin location", "pickup", "origin"]⟩,
  ⟨"pickup_state", .location, "PICKUP STATE", "origin_state",
    ["moving from state", "pickup state", "pick up state", "origin state", "from state"]⟩,
  ⟨"pickup_zip", .location, "PICKUP ZIP", "origin_zip",
    ["moving from zip code", "moving from zipcode", "moving from zip", "pickup zip code", "pickup zipcode",
     "pickup zip", "pick up zip", "origin zip code", "origin zipcode", "origin zip", "pickup postal code",
     "origin postal code", "from zip code", "from zipcode", "from zip"]⟩,
  ⟨"delivery_city", .location, "DELIVERY CITY", "destination_city",
    ["moving to city", "delivery city", "destination city", "dropoff city", "drop off city", "to city", "dest city",
     "moving city", "delivery location", "destination location", "dropoff location", "drop off location", "delivery",
     "destination"]⟩,
  ⟨"delivery_state", .location, "DELIVERY STATE", "destination_state",
    ["moving to state", "delivery state", "destination state", "dropoff state", "drop off state", "dest state",
     "moving state", "to state"]⟩,
  ⟨"delivery_zip", .location, "DELIVERY ZIP", "destination_zip",
    ["moving to zip code", "moving to zipcode", "moving to zip", "delivery zip code", "delivery zipcode",
     "delivery zip", "destination zip code", "destination zipcode", "destination zip", "dropoff zip", "drop off zip",
     "dest zip", "moving zip", "delivery postal code", "destination postal code", "to zip code", "to zipcode",
     "to zip"]⟩,
  ⟨"year", .vehicle, "YEAR", "vehicle_year",
    ["year of the vehicle", "year of vehicle", "vehicle year", "car year", "auto year", "year"]⟩,
  ⟨"make", .vehicle, "MAKE", "vehicle_make",
    ["make of the vehicle", "make of vehicle", "vehicle make", "car make", "auto make", "make"]⟩,
  ⟨"model", .vehicle, "MODEL", "vehicle_model",
    ["model of the vehicle", "model of vehicle", "vehicle model", "car model", "auto model", "model"]⟩,
  ⟨"condition", .vehicle, "CONDITION", "condition",
    ["condition of the vehicle", "condition of vehicle", "vehicle condition", "running condition", "is it running",
     "does it run", "condition", "operable", "running", "runs"]⟩,
  ⟨"trailer_type", .vehicle, "TRAILER TYPE", "transport_type",
    ["trailer type", "transport type", "carrier type", "shipping method", "transport method", "open or enclosed",
     "enclosed or open", "service type", "transport"]⟩,
  ⟨"vehicle_type", .vehicle, "VEHICLE TYPE", "vehicle_type",
    ["type of the vehicle", "type of vehicle", "vehicle type", "body type", "type"]⟩,
  ⟨"ship_date", .shipment, "SHIP DATE", "first_available_date",
    ["first available date", "available date", "available_date", "move date", "moving date", "pickup date",
     "pick up date", "ready date", "ship date", "shipping date", "transport date", "date of move"]⟩,
  ⟨"notes", .shipment, "NOTES", "notes",
    ["additional information", "additional info", "additional details", "special instructions", "comments",
     "remarks", "comment", "message", "notes", "note"]⟩]

def itemToField (itemName : String) : Option String :=
  (leadFieldCatalog.find? (fun spec => spec.itemName = itemName)).map FieldSpec.key

def legacyItemAliases : List (String × String) := [("customer_name", "first_name")]

def defaultLabels (key : String) : List String :=
  ((leadFieldCatalog.find? (fun spec => spec.key = key)).map FieldSpec.labels).getD []

end TheCargo.LeadFields
