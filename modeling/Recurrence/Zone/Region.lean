import Recurrence.Zone.Settled

/-!
# Regions

The offset histories of the regions that the zone database knows.

* `ZoneDatabase`: the regions that have a name, by default those listed here.
-/

namespace Recurrence

namespace History

/-- The offset of UTC. -/
def utc : History := .ofChanges 0 [] none

/-- The changes of New York's offset before 1970. -/
def newYorkBefore1970 : List (Int × Int) :=
  [(-2717650800, -18000), (-1633280400, -14400), (-1615140000, -18000), (-1601830800, -14400),
   (-1583690400, -18000), (-1570381200, -14400), (-1551636000, -18000), (-1536512400, -14400),
   (-1523210400, -18000), (-1504458000, -14400), (-1491760800, -18000), (-1473008400, -14400),
   (-1459706400, -18000), (-1441558800, -14400), (-1428256800, -18000), (-1410109200, -14400),
   (-1396807200, -18000), (-1378659600, -14400), (-1365357600, -18000), (-1347210000, -14400),
   (-1333908000, -18000), (-1315155600, -14400), (-1301853600, -18000), (-1283706000, -14400),
   (-1270404000, -18000), (-1252256400, -14400), (-1238954400, -18000), (-1220806800, -14400),
   (-1207504800, -18000), (-1189357200, -14400), (-1176055200, -18000), (-1157302800, -14400),
   (-1144605600, -18000), (-1125853200, -14400), (-1112551200, -18000), (-1094403600, -14400),
   (-1081101600, -18000), (-1062954000, -14400), (-1049652000, -18000), (-1031504400, -14400),
   (-1018202400, -18000), (-1000054800, -14400), (-986752800, -18000), (-968000400, -14400),
   (-955303200, -18000), (-936550800, -14400), (-923248800, -18000), (-905101200, -14400),
   (-891799200, -18000), (-880218000, -14400), (-765396000, -18000), (-747248400, -14400),
   (-733946400, -18000), (-715798800, -14400), (-702496800, -18000), (-684349200, -14400),
   (-671047200, -18000), (-652899600, -14400), (-639597600, -18000), (-620845200, -14400),
   (-608148000, -18000), (-589395600, -14400), (-576093600, -18000), (-557946000, -14400),
   (-544644000, -18000), (-526496400, -14400), (-513194400, -18000), (-495046800, -14400),
   (-481744800, -18000), (-463597200, -14400), (-447271200, -18000), (-431542800, -14400),
   (-415821600, -18000), (-400093200, -14400), (-384372000, -18000), (-368643600, -14400),
   (-352922400, -18000), (-337194000, -14400), (-321472800, -18000), (-305744400, -14400),
   (-289418400, -18000), (-273690000, -14400), (-257968800, -18000), (-242240400, -14400),
   (-226519200, -18000), (-210790800, -14400), (-195069600, -18000), (-179341200, -14400),
   (-163620000, -18000), (-147891600, -14400), (-131565600, -18000), (-116442000, -14400),
   (-100116000, -18000), (-84387600, -14400), (-68666400, -18000), (-52938000, -14400),
   (-37216800, -18000), (-21488400, -14400), (-5767200, -18000)]

/-- The changes of New York's offset since 1970. -/
def newYorkSince1970 : List (Int × Int) :=
  [(9961200, -14400), (25682400, -18000), (41410800, -14400), (57736800, -18000),
   (73465200, -14400), (89186400, -18000), (104914800, -14400), (120636000, -18000),
   (126687600, -14400), (152085600, -18000), (162370800, -14400), (183535200, -18000),
   (199263600, -14400), (215589600, -18000), (230713200, -14400), (247039200, -18000),
   (262767600, -14400), (278488800, -18000), (294217200, -14400), (309938400, -18000),
   (325666800, -14400), (341388000, -18000), (357116400, -14400), (372837600, -18000),
   (388566000, -14400), (404892000, -18000), (420015600, -14400), (436341600, -18000),
   (452070000, -14400), (467791200, -18000), (483519600, -14400), (499240800, -18000),
   (514969200, -14400), (530690400, -18000), (544604400, -14400), (562140000, -18000),
   (576054000, -14400), (594194400, -18000), (607503600, -14400), (625644000, -18000),
   (638953200, -14400), (657093600, -18000), (671007600, -14400), (688543200, -18000),
   (702457200, -14400), (719992800, -18000), (733906800, -14400), (752047200, -18000),
   (765356400, -14400), (783496800, -18000), (796806000, -14400), (814946400, -18000),
   (828860400, -14400), (846396000, -18000), (860310000, -14400), (877845600, -18000),
   (891759600, -14400), (909295200, -18000), (923209200, -14400), (941349600, -18000),
   (954658800, -14400), (972799200, -18000), (986108400, -14400), (1004248800, -18000),
   (1018162800, -14400), (1035698400, -18000), (1049612400, -14400), (1067148000, -18000),
   (1081062000, -14400), (1099202400, -18000), (1112511600, -14400), (1130652000, -18000),
   (1143961200, -14400), (1162101600, -18000), (1173596400, -14400)]

/-- The offsets of New York. -/
def newYork : History :=
  .ofChanges (-17762) (newYorkBefore1970 ++ newYorkSince1970)
    (some ⟨-18000, -14400, ⟨3, 2, .sunday, 7200⟩, ⟨11, 1, .sunday, 7200⟩⟩)

/-- The changes of Los Angeles's offset before 1970. -/
def losAngelesBefore1970 : List (Int × Int) :=
  [(-2717640000, -28800), (-1633269600, -25200), (-1615129200, -28800), (-1601820000, -25200),
   (-1583679600, -28800), (-880207200, -25200), (-765385200, -28800), (-687967140, -25200),
   (-662655600, -28800), (-620838000, -25200), (-608137200, -28800), (-589388400, -25200),
   (-576082800, -28800), (-557938800, -25200), (-544633200, -28800), (-526489200, -25200),
   (-513183600, -28800), (-495039600, -25200), (-481734000, -28800), (-463590000, -25200),
   (-450284400, -28800), (-431535600, -25200), (-418230000, -28800), (-400086000, -25200),
   (-386780400, -28800), (-368636400, -25200), (-355330800, -28800), (-337186800, -25200),
   (-323881200, -28800), (-305737200, -25200), (-292431600, -28800), (-273682800, -25200),
   (-260982000, -28800), (-242233200, -25200), (-226508400, -28800), (-210783600, -25200),
   (-195058800, -28800), (-179334000, -25200), (-163609200, -28800), (-147884400, -25200),
   (-131554800, -28800), (-116434800, -25200), (-100105200, -28800), (-84376800, -25200),
   (-68655600, -28800), (-52927200, -25200), (-37206000, -28800), (-21477600, -25200),
   (-5756400, -28800)]

/-- The changes of Los Angeles's offset since 1970. -/
def losAngelesSince1970 : List (Int × Int) :=
  [(9972000, -25200), (25693200, -28800), (41421600, -25200), (57747600, -28800),
   (73476000, -25200), (89197200, -28800), (104925600, -25200), (120646800, -28800),
   (126698400, -25200), (152096400, -28800), (162381600, -25200), (183546000, -28800),
   (199274400, -25200), (215600400, -28800), (230724000, -25200), (247050000, -28800),
   (262778400, -25200), (278499600, -28800), (294228000, -25200), (309949200, -28800),
   (325677600, -25200), (341398800, -28800), (357127200, -25200), (372848400, -28800),
   (388576800, -25200), (404902800, -28800), (420026400, -25200), (436352400, -28800),
   (452080800, -25200), (467802000, -28800), (483530400, -25200), (499251600, -28800),
   (514980000, -25200), (530701200, -28800), (544615200, -25200), (562150800, -28800),
   (576064800, -25200), (594205200, -28800), (607514400, -25200), (625654800, -28800),
   (638964000, -25200), (657104400, -28800), (671018400, -25200), (688554000, -28800),
   (702468000, -25200), (720003600, -28800), (733917600, -25200), (752058000, -28800),
   (765367200, -25200), (783507600, -28800), (796816800, -25200), (814957200, -28800),
   (828871200, -25200), (846406800, -28800), (860320800, -25200), (877856400, -28800),
   (891770400, -25200), (909306000, -28800), (923220000, -25200), (941360400, -28800),
   (954669600, -25200), (972810000, -28800), (986119200, -25200), (1004259600, -28800),
   (1018173600, -25200), (1035709200, -28800), (1049623200, -25200), (1067158800, -28800),
   (1081072800, -25200), (1099213200, -28800), (1112522400, -25200), (1130662800, -28800),
   (1143972000, -25200), (1162112400, -28800), (1173607200, -25200)]

/-- The offsets of Los Angeles. -/
def losAngeles : History :=
  .ofChanges (-28378) (losAngelesBefore1970 ++ losAngelesSince1970)
    (some ⟨-28800, -25200, ⟨3, 2, .sunday, 7200⟩, ⟨11, 1, .sunday, 7200⟩⟩)

/-- The changes of São Paulo's offset before 1970. -/
def saoPauloBefore1970 : List (Int × Int) :=
  [(-1767214412, -10800), (-1206957600, -7200), (-1191362400, -10800), (-1175374800, -7200),
   (-1159826400, -10800), (-633819600, -7200), (-622069200, -10800), (-602283600, -7200),
   (-591832800, -10800), (-570747600, -7200), (-560210400, -10800), (-539125200, -7200),
   (-531352800, -10800), (-195426000, -7200), (-184197600, -10800), (-155163600, -7200),
   (-149983200, -10800), (-128898000, -7200), (-121122000, -10800), (-99954000, -7200),
   (-89589600, -10800), (-68418000, -7200), (-57967200, -10800)]

/-- The changes of São Paulo's offset since 1970. -/
def saoPauloSince1970 : List (Int × Int) :=
  [(499748400, -7200), (511236000, -10800), (530593200, -7200), (540266400, -10800),
   (562129200, -7200), (571197600, -10800), (592974000, -7200), (602042400, -10800),
   (624423600, -7200), (634701600, -10800), (656478000, -7200), (666756000, -10800),
   (687927600, -7200), (697600800, -10800), (719982000, -7200), (728445600, -10800),
   (750826800, -7200), (761709600, -10800), (782276400, -7200), (793159200, -10800),
   (813726000, -7200), (824004000, -10800), (844570800, -7200), (856058400, -10800),
   (876106800, -7200), (888717600, -10800), (908074800, -7200), (919562400, -10800),
   (938919600, -7200), (951616800, -10800), (970974000, -7200), (982461600, -10800),
   (1003028400, -7200), (1013911200, -10800), (1036292400, -7200), (1045360800, -10800),
   (1066532400, -7200), (1076810400, -10800), (1099364400, -7200), (1108864800, -10800),
   (1129431600, -7200), (1140314400, -10800), (1162695600, -7200), (1172368800, -10800),
   (1192330800, -7200), (1203213600, -10800), (1224385200, -7200), (1234663200, -10800),
   (1255834800, -7200), (1266717600, -10800), (1287284400, -7200), (1298167200, -10800),
   (1318734000, -7200), (1330221600, -10800), (1350788400, -7200), (1361066400, -10800),
   (1382238000, -7200), (1392516000, -10800), (1413687600, -7200), (1424570400, -10800),
   (1445137200, -7200), (1456020000, -10800), (1476586800, -7200), (1487469600, -10800),
   (1508036400, -7200), (1518919200, -10800), (1541300400, -7200), (1550368800, -10800)]

/-- The offsets of São Paulo. -/
def saoPaulo : History :=
  .ofChanges (-11188) (saoPauloBefore1970 ++ saoPauloSince1970)
    none

/-- The changes of Paris's offset before 1970. -/
def parisBefore1970 : List (Int × Int) :=
  [(-1855958961, 0), (-1689814800, 3600), (-1680397200, 0), (-1665363600, 3600),
   (-1648342800, 0), (-1635123600, 3600), (-1616893200, 0), (-1604278800, 3600),
   (-1585443600, 0), (-1574038800, 3600), (-1552266000, 0), (-1539997200, 3600),
   (-1520557200, 0), (-1507510800, 3600), (-1490576400, 0), (-1470618000, 3600),
   (-1459126800, 0), (-1444006800, 3600), (-1427677200, 0), (-1411952400, 3600),
   (-1396227600, 0), (-1379293200, 3600), (-1364778000, 0), (-1348448400, 3600),
   (-1333328400, 0), (-1316394000, 3600), (-1301274000, 0), (-1284339600, 3600),
   (-1269824400, 0), (-1253494800, 3600), (-1238374800, 0), (-1221440400, 3600),
   (-1206925200, 0), (-1191200400, 3600), (-1175475600, 0), (-1160355600, 3600),
   (-1143421200, 0), (-1127696400, 3600), (-1111971600, 0), (-1096851600, 3600),
   (-1080522000, 0), (-1063587600, 3600), (-1049072400, 0), (-1033347600, 3600),
   (-1017622800, 0), (-1002502800, 3600), (-986173200, 0), (-969238800, 3600),
   (-950490000, 0), (-942012000, 3600), (-932436000, 7200), (-857257200, 3600),
   (-844556400, 7200), (-828226800, 3600), (-812502000, 7200), (-796266000, 3600),
   (-781052400, 7200), (-766623600, 3600)]

/-- The changes of Paris's offset since 1970. -/
def parisSince1970 : List (Int × Int) :=
  [(196819200, 7200), (212540400, 3600), (228877200, 7200), (243997200, 3600),
   (260326800, 7200), (276051600, 3600), (291776400, 7200), (307501200, 3600),
   (323830800, 7200), (338950800, 3600), (354675600, 7200), (370400400, 3600),
   (386125200, 7200), (401850000, 3600), (417574800, 7200), (433299600, 3600),
   (449024400, 7200), (465354000, 3600), (481078800, 7200), (496803600, 3600),
   (512528400, 7200), (528253200, 3600), (543978000, 7200), (559702800, 3600),
   (575427600, 7200), (591152400, 3600), (606877200, 7200), (622602000, 3600),
   (638326800, 7200), (654656400, 3600), (670381200, 7200), (686106000, 3600),
   (701830800, 7200), (717555600, 3600), (733280400, 7200), (749005200, 3600),
   (764730000, 7200), (780454800, 3600), (796179600, 7200), (811904400, 3600),
   (828234000, 7200)]

/-- The offsets of Paris. -/
def paris : History :=
  .ofChanges 561 (parisBefore1970 ++ parisSince1970)
    (some ⟨3600, 7200, ⟨3, 5, .sunday, 7200⟩, ⟨10, 5, .sunday, 10800⟩⟩)

/-- The offsets of Lord Howe Island. -/
def lordHowe : History := .ofChanges 38180
  [(-2364114980, 36000), (352216800, 37800), (372785400, 41400), (384273000, 37800),
   (404839800, 41400), (415722600, 37800), (436289400, 41400), (447172200, 37800),
   (467739000, 41400), (478621800, 37800), (499188600, 39600), (511282800, 37800),
   (530033400, 39600), (542732400, 37800), (562087800, 39600), (574786800, 37800),
   (594142200, 39600), (606236400, 37800), (625591800, 39600), (636476400, 37800),
   (657041400, 39600), (667926000, 37800), (688491000, 39600), (699375600, 37800),
   (719940600, 39600), (731430000, 37800), (751995000, 39600), (762879600, 37800),
   (783444600, 39600), (794329200, 37800), (814894200, 39600), (828198000, 37800),
   (846343800, 39600), (859647600, 37800), (877793400, 39600), (891097200, 37800),
   (909243000, 39600), (922546800, 37800), (941297400, 39600), (953996400, 37800),
   (967303800, 39600), (985446000, 37800), (1004196600, 39600), (1017500400, 37800),
   (1035646200, 39600), (1048950000, 37800), (1067095800, 39600), (1080399600, 37800),
   (1099150200, 39600), (1111849200, 37800), (1130599800, 39600), (1143903600, 37800),
   (1162049400, 39600), (1174748400, 37800), (1193499000, 39600), (1207407600, 37800)]
  (some ⟨37800, 39600, ⟨10, 1, .sunday, 7200⟩, ⟨4, 1, .sunday, 7200⟩⟩)

/-- The offsets of Apia. -/
def apia : History := .ofChanges 45184
  [(-2445424384, -41216), (-1861878784, -41400), (-631110600, -39600), (1285498800, -36000),
   (1301752800, -39600), (1316872800, -36000), (1325239200, 50400), (1333202400, 46800),
   (1348927200, 50400), (1365256800, 46800), (1380376800, 50400), (1396706400, 46800),
   (1411826400, 50400), (1428156000, 46800), (1443276000, 50400), (1459605600, 46800),
   (1474725600, 50400), (1491055200, 46800), (1506175200, 50400), (1522504800, 46800),
   (1538229600, 50400), (1554559200, 46800), (1569679200, 50400), (1586008800, 46800),
   (1601128800, 50400), (1617458400, 46800)]
  none

/-- The offsets of Kiritimati. -/
def kiritimati : History := .ofChanges (-37760)
  [(-2177415040, -38400), (307622400, -36000), (788868000, 50400)]
  none

/-- The offsets of Kolkata. -/
def kolkata : History := .ofChanges 21208
  [(-3645237208, 21200), (-3155694800, 19270), (-2019705670, 19800), (-891581400, 23400),
   (-872058600, 19800), (-862637400, 23400), (-764145000, 19800)]
  none

/-- The offsets of Tokyo. -/
def tokyo : History := .ofChanges 33539
  [(-2587712400, 32400), (-683802000, 36000), (-672310800, 32400), (-654771600, 36000),
   (-640861200, 32400), (-620298000, 36000), (-609411600, 32400), (-588848400, 36000),
   (-577962000, 32400)]
  none

end History

/-- A region: its name, and the offsets that its clocks have shown over time. -/
structure Region where
  name : String
  history : History
deriving DecidableEq

namespace Region

def utc : Region := ⟨"UTC", .utc⟩

def newYork : Region := ⟨"America/New_York", .newYork⟩

def losAngeles : Region := ⟨"America/Los_Angeles", .losAngeles⟩

def saoPaulo : Region := ⟨"America/Sao_Paulo", .saoPaulo⟩

def paris : Region := ⟨"Europe/Paris", .paris⟩

def lordHowe : Region := ⟨"Australia/Lord_Howe", .lordHowe⟩

def apia : Region := ⟨"Pacific/Apia", .apia⟩

def kiritimati : Region := ⟨"Pacific/Kiritimati", .kiritimati⟩

def kolkata : Region := ⟨"Asia/Kolkata", .kolkata⟩

def tokyo : Region := ⟨"Asia/Tokyo", .tokyo⟩

/-- The regions of the usual zone database. -/
def all : List Region :=
  [utc, newYork, losAngeles, saoPaulo, paris, lordHowe, apia, kiritimati, kolkata, tokyo]

end Region

/-! ## Databases -/

/-- A zone database. -/
class ZoneDatabase where
  /-- The regions that have a name. -/
  regions : List Region
  below_day : ∀ region ∈ regions, region.history.BelowDay
  settled : ∀ region ∈ regions, region.history.IsSettled

instance : ZoneDatabase := ⟨Region.all, by decide +kernel, by decide +kernel⟩

end Recurrence
