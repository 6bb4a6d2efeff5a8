import Mapae.Infra.Result
import Mapae.Infra.Text

/-!
# Guardian names

The display name of a minted guardian in each language. The source takes the token as a decimal
text or a number; here it is the number.
-/

namespace Mapae.Guardians

open Mapae.Infra

inductive Locale where
  | ko
  | en
  deriving DecidableEq

def GUARDIAN_MAX_SUPPLY : Nat := 10000

def GUARDIAN_NAME_MODIFIERS : Locale → List String
  | .ko => [
    "졸린", "배고픈", "수줍은", "덤벙대는", "꼼꼼한", "콧노래 부르는", "엽전 세는", "신난", "느긋한",
    "부지런한", "호기심 많은", "용감한", "씩씩한", "얌전한", "장난스러운", "깜찍한", "꾀 많은",
    "춤추는", "노래하는", "낮잠 자는", "하품하는", "재채기하는", "딸꾹질하는", "떡 먹는", "엿 파는",
    "연 날리는", "팽이 돌리는", "제기 차는", "윷 던지는", "그네 타는", "별 세는", "달 보는",
    "구름 쫓는", "나비 쫓는", "개구리 잡는", "붓 든", "북 치는", "피리 부는", "장구 치는",
    "꽹과리 치는", "휘파람 부는", "꿈꾸는", "웃음 많은", "상냥한", "똑똑한", "엉뚱한", "명랑한",
    "의젓한", "발 빠른", "손 큰", "눈치 빠른", "코 고는", "반짝이는", "보송보송한", "말랑말랑한",
    "뒹구는", "깡충깡충 뛰는", "뒤뚱거리는", "살금살금 걷는", "두리번거리는", "수다스러운", "과묵한",
    "고집 센", "깜빡깜빡하는", "바쁜", "들뜬", "설레는", "뿌듯한", "꾸벅꾸벅 조는", "이불 덮은",
    "밥 짓는", "국수 삶는", "감자 굽는", "군밤 까는", "곶감 숨긴", "송편 빚는", "빨래하는",
    "물 긷는", "장작 패는", "짚신 삼는", "새끼 꼬는", "보따리 멘", "장터 가는", "편지 쓰는",
    "글 읽는", "수수께끼 내는", "숨바꼭질하는", "술래잡기하는", "도깨비 만난", "호랑이 놀린",
    "까치 반기는", "무지개 찾는", "눈사람 만드는", "꽃 따는", "도토리 모으는", "꼬리 흔드는",
    "늠름한", "다정한", "꿋꿋한", "쌩쌩한"]
  | .en => [
    "Sleepy", "Hungry", "Shy", "Clumsy", "Meticulous", "Humming", "Coin-Counting", "Excited",
    "Easygoing", "Diligent", "Curious", "Brave", "Plucky", "Gentle", "Playful", "Adorable",
    "Clever", "Dancing", "Singing", "Napping", "Yawning", "Sneezing", "Hiccuping",
    "Rice-Cake-Munching", "Taffy-Selling", "Kite-Flying", "Top-Spinning", "Shuttlecock-Kicking",
    "Yut-Tossing", "Swinging", "Star-Counting", "Moon-Watching", "Cloud-Chasing",
    "Butterfly-Chasing", "Frog-Catching", "Brush-Wielding", "Drumming", "Flute-Playing",
    "Janggu-Playing", "Gong-Ringing", "Whistling", "Dreaming", "Giggly", "Kind", "Bright",
    "Quirky", "Cheerful", "Poised", "Swift-Footed", "Generous", "Quick-Witted", "Snoring",
    "Sparkling", "Fluffy", "Squishy", "Tumbling", "Hopping", "Waddling", "Tiptoeing", "Glancing",
    "Chatty", "Quiet", "Stubborn", "Forgetful", "Busy", "Giddy", "Eager", "Beaming",
    "Nodding-Off", "Cozy", "Rice-Cooking", "Noodle-Boiling", "Potato-Roasting",
    "Chestnut-Peeling", "Persimmon-Hiding", "Songpyeon-Making", "Laundry-Doing", "Water-Fetching",
    "Wood-Chopping", "Sandal-Weaving", "Rope-Twisting", "Bundle-Carrying", "Market-Bound",
    "Letter-Writing", "Book-Reading", "Riddling", "Hide-and-Seeking", "Tag-Playing",
    "Dokkaebi-Spotting", "Tiger-Teasing", "Magpie-Greeting", "Rainbow-Seeking",
    "Snowman-Building", "Flower-Picking", "Acorn-Gathering", "Tail-Wagging", "Gallant",
    "Affectionate", "Steadfast", "Lively"]

def GUARDIAN_GIVEN_NAMES : Locale → List String
  | .ko => [
    "돌쇠", "마당쇠", "꽃분이", "복실이", "개똥이", "삼월이", "덕구", "칠복이", "막동이", "억쇠",
    "바우", "똘이", "점순이", "쇠돌이", "갑돌이", "갑순이", "복동이", "복순이", "순돌이", "삼돌이",
    "칠득이", "만복이", "만석이", "천석이", "금동이", "은동이", "옥분이", "옥동이", "봉순이",
    "봉구", "달래", "달님이", "별님이", "초롱이", "방울이", "꽃님이", "순이", "영이", "철이",
    "삽살이", "누렁이", "바둑이", "춘삼이", "마돌이", "장쇠", "먹쇠", "판쇠", "꽃돌이", "보리",
    "콩이", "팥쇠", "감돌이", "밤톨이", "도토리", "대길이", "수동이", "귀동이", "귀남이", "귀분이",
    "옥이", "연이", "아롱이", "다롱이", "몽실이", "봉실이", "복돌이", "오복이", "칠성이", "팔봉이",
    "구슬이", "백돌이", "천둥이", "번개", "우뚝이", "막쇠", "삼순이", "봄이", "여름이", "가을이",
    "겨울이", "꽃순이", "매화", "솔이", "차돌이", "뭉치", "똘똘이", "알밤이", "꼬물이", "복댕이",
    "복남이", "쌀분이", "금순이", "은순이", "덕순이", "덕배", "만득이", "상돌이", "얼쑤", "덩실이",
    "까꿍이"]
  | .en => [
    "Dolsoe", "Madangsoe", "Kkotbuni", "Boksiri", "Gaettongi", "Samwori", "Deokgu", "Chilbogi",
    "Makdongi", "Eoksoe", "Bau", "Ttori", "Jeomsuni", "Soedori", "Gapdori", "Gapsuni", "Bokdongi",
    "Boksuni", "Sundori", "Samdori", "Childeugi", "Manbogi", "Manseogi", "Cheonseogi",
    "Geumdongi", "Eundongi", "Okbuni", "Okdongi", "Bongsuni", "Bonggu", "Dallae", "Dallimi",
    "Byeollimi", "Chorongi", "Banguri", "Kkonnimi", "Suni", "Yeongi", "Cheori", "Sapsari",
    "Nureongi", "Badugi", "Chunsami", "Madori", "Jangsoe", "Meoksoe", "Pansoe", "Kkotdori",
    "Bori", "Kongi", "Patsoe", "Gamdori", "Bamtori", "Dotori", "Daegiri", "Sudongi", "Gwidongi",
    "Gwinami", "Gwibuni", "Ogi", "Yeoni", "Arongi", "Darongi", "Mongsiri", "Bongsiri", "Bokdori",
    "Obogi", "Chilseongi", "Palbongi", "Guseuri", "Baekdori", "Cheondungi", "Beongae", "Uttugi",
    "Maksoe", "Samsuni", "Bomi", "Yeoreumi", "Gaeuri", "Gyeouri", "Kkotsuni", "Maehwa", "Sori",
    "Chadori", "Mungchi", "Ttolttori", "Albami", "Kkomuri", "Bokdaengi", "Bongnami", "Ssalbuni",
    "Geumsuni", "Eunsuni", "Deoksuni", "Deokbae", "Mandeugi", "Sangdori", "Eolssu", "Deongsiri",
    "Kkakkungi"]

/-- A 7919-step walk over the grid of modifiers and given names. -/
def guardianName (tokenId : Nat) (locale : Locale) : Except String String := do
  throwIf (tokenId < 1 ∨ tokenId > GUARDIAN_MAX_SUPPLY) "Invalid guardian token ID"
  let index := ((tokenId - 1) * 7919) % GUARDIAN_MAX_SUPPLY
  return (GUARDIAN_NAME_MODIFIERS locale).getD (index % 100) "undefined" ++ " " ++
    (GUARDIAN_GIVEN_NAMES locale).getD (index / 100) "undefined"

end Mapae.Guardians
