import Lookaside.Blank
import Lookaside.Calendar.Reader
import Lookaside.Entity
import Lookaside.Json.Format
import Lookaside.Uuid

namespace Lookaside

open Json Calendar

structure Domain where
  id : Int32
  key : Uuid
  name : String
  rootContentId : Option Int32
  languageIsoCode : Option String
  createDate : UtcTime
deriving DecidableEq, Repr

namespace Domain

def new (name : String) (key : Uuid) (createDate : UtcTime) : Domain :=
  { id := 0, key, name, rootContentId := none, languageIsoCode := none, createDate }

def withRootContent (contentId : Int32) (d : Domain) : Domain :=
  { d with rootContentId := some contentId }

def withLanguage (isoCode : String) (d : Domain) : Domain :=
  { d with languageIsoCode := some isoCode }

def isWildcard (d : Domain) : Bool :=
  d.name.toList.head? = some '*'

def validate (d : Domain) : Except String Unit :=
  if trimBlanks d.name.toList = [] then .error "domain name must not be empty" else .ok ()

def format : RecordFormat Domain where
  names := ["id", "key", "domain_name", "root_content_id", "language_iso_code", "create_date"]
  values d :=
    [.integer d.id.toInt, .text (String.ofList d.key.write), .text d.name,
      .ofOption (fun n => .integer n.toInt) d.rootContentId, .ofOption .text d.languageIsoCode,
      .text (String.ofList d.createDate.write)]
  ofColumns?
    | [id, key, name, rootContentId, languageIsoCode, createDate] => do
      let key ← Item.required Item.text? key
      let createDate ← Item.required Item.text? createDate
      return {
        id := ← Item.required Item.int32? id
        key := ← Uuid.read? key.toList
        name := ← Item.required Item.text? name
        rootContentId := ← Item.optional Item.int32? rootContentId
        languageIsoCode := ← Item.optional Item.text? languageIsoCode
        createDate := ← UtcTime.read? createDate.toList }
    | _ => none

end Domain

instance : NumberedEntity Domain where
  typeName := "Domain"
  id := Domain.id
  hasIdentity d := 0 < d.id
  renderId := renderNumber
  encode d := .ok (Domain.format.encode d)
  decode? := Domain.format.decode?
  withId id d := { d with id }
  validate := Domain.validate

end Lookaside
