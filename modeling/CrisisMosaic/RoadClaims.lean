import CrisisMosaic.Records

/-!
# Structured claims of road reports

The patterns of `report_observations.py` and the narrow facts extracted with
them. A report that asks or doubts yields the claim `unknown`.
-/

namespace CrisisMosaic
open Pattern (text words oneOf near whole)

def roadOrBridge : Pattern := words "道路" ["桥梁"]
def flooding : Pattern := text "积水"

def roadBlocked : Pattern :=
  oneOf (near (words "无法" ["不能", "不可", "禁止", "中断"]) 8 (text "通行"))
    [near roadOrBridge 8 (words "封闭" ["中断"]), text "封路",
      whole (words "blocked" ["closed", "impassable"])]

def roadPassable : Pattern :=
  oneOf (near (oneOf (.seq (.notAfter '不') (text "可"))
      (["可以", "能够", "仍可", "尚可", "恢复", "正常", "缓慢"].map text)) 8 (text "通行"))
    [near roadOrBridge 8 (words "畅通" ["开放"]), whole (words "passable" ["open to traffic"])]

def roadRisk : Pattern :=
  oneOf (words "积水" ["塌方", "落石"])
    [near (text "路面") 6 (words "损坏" ["塌陷", "开裂"]),
      near roadOrBridge 6 (words "损坏" ["危险", "异常"]),
      whole (words "flooded" ["flooding", "flood", "landslide", "road damage", "bridge damage"])]

def roadFloodAbsent : Pattern :=
  oneOf (near (words "没有" ["无", "未见", "未发现", "并未", "尚未", "不存在", "并无"]) 4 flooding)
    [near flooding 6 (words "已退" ["消退", "退去", "已排除"])]

def roadFloodUncertain : Pattern :=
  oneOf (near (words "是否" ["有无", "有没有", "不确定", "不知道", "未知", "待确认"]) 10 flooding)
    [near flooding 10 (words "是否" ["有无", "不确定", "不知道", "未知", "待确认", "情况不明"])]

def roadUncertain : Pattern :=
  oneOf (words "是否" ["能否", "能不能", "不确定", "不知道", "未知", "待确认", "吗", "？", "?"])
    [whole (words "unknown" ["unclear", "uncertain", "not sure", "whether"])]

def roadTopic : Pattern :=
  oneOf (words "通行" ["道路", "桥梁", "路况"])
    [.seq .boundary (.seq (words "road" ["bridge", "passab"]) (.seq .wordRun .boundary))]

structure StructuredClaim where
  topic : String
  key : String
  value : String

section Extraction
variable (env : Env)

def locationHash (locationText : String) : String :=
  String.ofList ((env.sha256 (String.ofList (normalizedLocation env.text locationText))).toList.take 20)

def roadFactKey (locationText : String) : String :=
  "road.passability:" ++ locationHash env locationText

def roadFloodingFactKey (locationText : String) : String :=
  "road.flooding:" ++ locationHash env locationText

def passabilityClaim (locationText value : String) : StructuredClaim :=
  ⟨"road_passability", roadFactKey env locationText, value⟩

def floodingClaim (locationText value : String) : StructuredClaim :=
  ⟨"road_flooding", roadFloodingFactKey env locationText, value⟩

def extractStructuredClaim (report : Report) : Option StructuredClaim :=
  if report.category ≠ .road then none
  else
    let body := (report.contentOriginal ++ "\n" ++ report.contentDisplay).toList
    let search (p : Pattern) : Bool := p.search env.text body
    let passability := passabilityClaim env report.place.locationText
    let floodingIs := floodingClaim env report.place.locationText
    let blocked := search roadBlocked
    let passable := search roadPassable
    let floodAbsent := search roadFloodAbsent
    let floodPresent := flooding.search env.text (roadFloodAbsent.remove env.text body)
    if search roadFloodUncertain then some (floodingIs "unknown")
    else if search roadUncertain && search roadTopic then some (passability "unknown")
    else if blocked ≠ passable then
      some (passability (if blocked then "blocked" else "passable"))
    else if floodAbsent ≠ floodPresent then
      some (floodingIs (if floodAbsent then "absent" else "present"))
    else if floodAbsent || floodPresent then some (floodingIs "unknown")
    else if blocked || passable || search roadRisk then some (passability "unknown")
    else none

def isExplicitlyUncertain (f : InformationFragment) : Bool :=
  let search (p : Pattern) : Bool := p.search env.text f.description.toList
  (f.topic = "road_flooding" && search roadFloodUncertain) ||
    (f.topic = "road_passability" && search roadUncertain && search roadTopic)

end Extraction
end CrisisMosaic
