/-! The layers of the ziggurat method: the right edge of each of 256 layers and the density there, for the
normal and the exponential distribution. The numbers are 18 decimals each. Edges decrease from the layer of
the tail to zero, and densities increase to one. -/
namespace VideoLink.Random

/-- A number given by its digits, of which 18 are decimals. -/
private def decimals (digits : Nat) : Float := Float.ofScientific digits true 18

def normalEdgesDigits : Array Nat := #[
  3910757959537090045, 3654152885361008796, 3449278298560964462, 3320244733839166074,
  3224575052047029100, 3147889289517149969, 3083526132001233044, 3027837791768635434,
  2978603279880844834, 2934366867207854224, 2894121053612348060, 2857138730872132548,
  2822877396825325125, 2790921174000785765, 2760944005278822555, 2732685359042827056,
  2705933656121858100, 2680514643284522158, 2656283037575502437, 2633116393630324570,
  2610910518487548515, 2589575986706995181, 2569035452680536569, 2549221550323460761,
  2530075232158516929, 2511544441625342294, 2493583041269680667, 2476149939669143318,
  2459208374333311298, 2442725318198956774, 2426670984935725972, 2411018413899685520,
  2395743119780480601, 2380822795170626005, 2366237056715818632, 2351967227377659952,
  2337996148795031370, 2324308018869623016, 2310888250599850036, 2297723348901329565,
  2284800802722946056, 2272108990226823888, 2259637095172217780, 2247375032945807760,
  2235313384928327984, 2223443340090905718, 2211756642882544366, 2200245546609647995,
  2188902771624720689, 2177721467738641614, 2166695180352645966, 2155817819875063268,
  2145083634046203613, 2134487182844320152, 2124023315687815661, 2113687150684933957,
  2103474055713146829, 2093379631137050279, 2083399693996551783, 2073530263516978778,
  2063767547809956415, 2054107931648864849, 2044547965215732788, 2035084353727808715,
  2025713947862032960, 2016433734904371722, 2007240830558684852, 1998132471356564244,
  1989106007615571325, 1980158896898598364, 1971288697931769640, 1962493064942461896,
  1953769742382734043, 1945116560006753925, 1936531428273758904, 1928012334050718257,
  1919557336591228847, 1911164563769282232, 1902832208548446369, 1894558525668710081,
  1886341828534776388, 1878180486290977669, 1870072921069236838, 1862017605397632281,
  1854013059758148119, 1846057850283119750, 1838150586580728607, 1830289919680666566,
  1822474540091783224, 1814703175964167636, 1806974591348693426, 1799287584547580199,
  1791640986550010028, 1784033659547276329, 1776464495522344977, 1768932414909077933,
  1761436365316706665, 1753975320315455111, 1746548278279492994, 1739154261283669012,
  1731792314050707216, 1724461502945775715, 1717160915015540690, 1709889657069006086,
  1702646854797613907, 1695431651932238548, 1688243209434858727, 1681080704722823338,
  1673943330923760353, 1666830296159286684, 1659740822855789499, 1652674147080648526,
  1645629517902360339, 1638606196773111146, 1631603456932422036, 1624620582830568427,
  1617656869570534228, 1610711622367333673, 1603784156023583041, 1596873794420261339,
  1589979870021648534, 1583101723393471438, 1576238702733332886, 1569390163412534456,
  1562555467528439657, 1555733983466554893, 1548925085471535512, 1542128153226347553,
  1535342571438843118, 1528567729435024614, 1521803020758293101, 1515047842773992404,
  1508301596278571965, 1501563685112706548, 1494833515777718391, 1488110497054654369,
  1481394039625375747, 1474683555695025516, 1467978458615230908, 1461278162507407830,
  1454582081885523293, 1447889631277669675, 1441200224845798017, 1434513276002946425,
  1427828197027290358, 1421144398672323117, 1414461289772464658, 1407778276843371534,
  1401094763676202559, 1394410150925071257, 1387723835686884621, 1381035211072741964,
  1374343665770030531, 1367648583594317957, 1360949343030101844, 1354245316759430606,
  1347535871177359290, 1340820365893152122, 1334098153216083604, 1327368577624624679,
  1320630975217730096, 1313884673146868964, 1307128989027353860, 1300363230327433728,
  1293586693733517645, 1286798664489786415, 1279998415710333237, 1273185207661843732,
  1266358287014688333, 1259516886060144225, 1252660221891297887, 1245787495544997903,
  1238897891102027415, 1231990574742445110, 1225064693752808020, 1218119375481726552,
  1211153726239911244, 1204166830140560140, 1197157747875585931, 1190125515422801650,
  1183069142678760732, 1175987612011489825, 1168879876726833800, 1161744859441574240,
  1154581450355851802, 1147388505416733873, 1140164844363995789, 1132909248648336975,
  1125620459211294389, 1118297174115062909, 1110938046009249502, 1103541679420268151,
  1096106627847603487, 1088631390649514197, 1081114409698889389, 1073554065787871714,
  1065948674757506653, 1058296483326006454, 1050595664586207123, 1042844313139370538,
  1035040439828605274, 1027181966030751292, 1019266717460529215, 1011292417434978441,
  1003256679539591412, 995156999629943084, 986990747093846266, 978755155288937750,
  970447311058864615, 962064143217605250, 953602409875572654, 945058684462571130,
  936429340280896860, 927710533396234771, 918898183643734989, 909987953490768997,
  900975224455174528, 891855070726792376, 882622229578910122, 873271068082494550,
  863795545546826915, 854189171001560554, 844444954902423661, 834555354079518752,
  824512208745288633, 814306670128064347, 803929116982664893, 793369058833152785,
  782615023299588763, 771654424216739354, 760473406422083165, 749056662009581653,
  737387211425838629, 725446140901303549, 713212285182022732, 700661841097584448,
  687767892786257717, 674499822827436479, 660822574234205984, 646695714884388928,
  632072236375024632, 616896989996235545, 601104617743940417, 584616766093722262,
  567338257040473026, 549151702313026790, 529909720646495108, 509423329585933393,
  487443966121754335, 463634336771763245, 437518402186662658, 408389134588000746,
  375121332850465727, 335737519180459465, 286174591747260509, 215241895913273806,
  0]

def normalEdges : Array Float := normalEdgesDigits.map decimals

def normalDensitiesDigits : Array Nat := #[
  477467764586655, 1260285930498598, 2609072746106363, 4037972593371872,
  5522403299264754, 7050875471392110, 8616582769422917, 10214971439731100,
  11842757857943104, 13497450601780807, 15177088307982072, 16880083152595839,
  18605121275783350, 20351096230109354, 22117062707379922, 23902203305873237,
  25705804008632656, 27527235669693315, 29365939758230111, 31221417192023690,
  33093219458688698, 34980941461833073, 36884215688691151, 38802707404656918,
  40736110656078753, 42684144916619378, 44646552251446536, 46623094902089664,
  48613553216035145, 50617723861121788, 52635418276973649, 54666461325077916,
  56710690106399467, 58767952921137984, 60838108349751806, 62921024437977854,
  65016577971470438, 67124653828023989, 69245144397250269, 71377949059141965,
  73522973714240991, 75680130359194964, 77849336702372207, 80030515814947509,
  82223595813495684, 84428509570654661, 86645194450867782, 88873592068594229,
  91113648066700734, 93365311913026619, 95628536713353335, 97903279039215627,
  100189498769172020, 102487158942306270, 104796225622867056, 107116667775072880,
  109448457147210021, 111791568164245583, 114145977828255210, 116511665626037014,
  118888613443345698, 121276805485235437, 123676228202051403, 126086870220650349,
  128508722280473636, 130941777174128166, 133386029692162844, 135841476571757352,
  138308116449064322, 140785949814968309, 143274978974047118, 145775208006537926,
  148286642733128721, 150809290682410169, 153343161060837674, 155888264725064563,
  158444614156520225, 161012223438117663, 163591108232982951, 166181285765110071,
  168782774801850333, 171395595638155623, 174019770082499359, 176655321444406654,
  179302274523530397, 181960655600216487, 184630492427504539, 187311814224516926,
  190004651671193070, 192709036904328807, 195425003514885592, 198152586546538112,
  200891822495431333, 203642749311121501, 206405406398679298, 209179834621935651,
  211966076307852941, 214764175252008499, 217574176725178370, 220396127481011589,
  223230075764789593, 226076071323264877, 228934165415577484, 231804410825248525,
  234686861873252689, 237581574432173676, 240488605941449107, 243408015423711988,
  246339863502238771, 249284212419516704, 252241126056943765, 255210669955677150,
  258192911338648023, 261187919133763713, 264195763998317568, 267216518344631837,
  270250256366959984, 273297054069675804, 276356989296781264, 279430141762765316,
  282516593084849388, 285616426816658109, 288729728483353931, 291856585618280984,
  294997087801162572, 298151326697901342, 301319396102034120, 304501391977896274,
  307697412505553769, 310907558127563710, 314131931597630143, 317370638031222396,
  320623784958230129, 323891482377732021, 327173842814958593, 330470981380537099,
  333783015832108509, 337110066638412809, 340452257045945450, 343809713148291340,
  347182563958251478, 350570941482881204, 353974980801569250, 357394820147290515,
  360830600991175754, 364282468130549597, 367750569780596226, 371235057669821344,
  374736087139491414, 378253817247238111, 381788410875031348, 385340034841733958,
  388908860020464597, 392495061461010764, 396098818517547080, 399720314981931668,
  403359739222868885, 407017284331247953, 410693148271983222, 414387534042706784,
  418100649839684591, 421832709231353298, 425583931339900579, 429354541031341519,
  433144769114574058, 436954852549929273, 440785034667769915, 444635565397727750,
  448506701509214067, 452398706863882505, 456311852680773566, 460246417814923481,
  464202689050278838, 468180961407822172, 472181538469883255, 476204732721683788,
  480250865911249714, 484320269428911598, 488413284707712059, 492530263646148658,
  496671569054796314, 500837575128482149, 505028667945828791, 509245245998136142,
  513487720749743026, 517756517232200619, 522052074674794864, 526374847174186700,
  530725304406193921, 535103932383019565, 539511234259544614, 543947731192649941,
  548413963257921133, 552910490428519918, 557437893621486324, 561996775817277916,
  566587763258951771, 571211506738074970, 575868682975210544, 580559996103683473,
  585286179266300333, 590047996335791969, 594846243770991268, 599681752622167719,
  604555390700549533, 609468064928895381, 614420723892076803, 619414360609039205,
  624450015550274240, 629528779928128279, 634651799290960050, 639820277456438991,
  645035480824251883, 650298743114294586, 655611470583224665, 660975147780241357,
  666391343912380640, 671861719900766374, 677388036222513090, 682972161648791376,
  688616083008527058, 694321916130032579, 700091918140490099, 705928501336797409,
  711834248882358467, 717811932634901395, 723864533472881599, 729995264565802437,
  736207598131266683, 742505296344636245, 748892447223726720, 755373506511754500,
  761953346841546475, 768637315803334831, 775431304986138326, 782341832659861902,
  789376143571198563, 796542330428254619, 803849483176389490, 811307874318219935,
  818929191609414797, 826726833952094231, 834716292992930375, 842915653118441077,
  851346258465123684, 860033621203008636, 869008688043793165, 878309655816146839,
  887984660763399880, 898095921906304051, 908726440060562912, 919991505048360247,
  932060075968990209, 945198953453078028, 959879091812415930, 977101701282731328,
  1000000000000000000]

def normalDensities : Array Float := normalDensitiesDigits.map decimals

def exponentialEdgesDigits : Array Nat := #[
  8697117470131052741, 7697117470131050077, 6941033629377212577, 6478378493832569696,
  6144164665772472667, 5882144315795399869, 5666410167454033697, 5482890627526062488,
  5323090505754398016, 5181487281301500047, 5054288489981304089, 4938777085901250530,
  4832939741025112035, 4735242996601741083, 4644491885420085175, 4559737061707351380,
  4480211746528421912, 4405287693473573185, 4334443680317273007, 4267242480277365857,
  4203313713735184365, 4142340865664051464, 4084051310408297830, 4028208544647936762,
  3974606066673788796, 3923062500135489739, 3873417670399509127, 3825529418522336744,
  3779270992411667862, 3734528894039797375, 3691201090237418825, 3649195515760853770,
  3608428813128909507, 3568825265648337020, 3530315889129343354, 3492837654774059608,
  3456332821132760191, 3420748357251119920, 3386035442460300970, 3352149030900109405,
  3319047470970748037, 3286692171599068679, 3255047308570449882, 3224079565286264160,
  3193757903212240290, 3164053358025972873, 3134938858084440394, 3106389062339824481,
  3078380215254090224, 3050890016615455114, 3023897504455676621, 2997382949516130601,
  2971327759921089662, 2945714394895045718, 2920526286512740821, 2895747768600141825,
  2871364012015536371, 2847360965635188812, 2823725302450035279, 2800444370250737780,
  2777506146439756574, 2754899196562344610, 2732612636194700073, 2710636095867928752,
  2688959688741803689, 2667573980773266573, 2646469963151809157, 2625639026797788489,
  2605072938740835564, 2584763820214140750, 2564704126316905253, 2544886627111869970,
  2525304390037828028, 2505950763528594027, 2486819361740209455, 2467904050297364815,
  2449198932978249754, 2430698339264419694, 2412396812688870629, 2394289099921457886,
  2376370140536140596, 2358635057409337321, 2341079147703034380, 2323697874390196372,
  2306486858283579799, 2289441870532269441, 2272558825553154804, 2255833774367219213,
  2239262898312909034, 2222842503111036816, 2206569013257663858, 2190438966723220027,
  2174449009937774679, 2158595893043885994, 2142876465399842001, 2127287671317368289,
  2111826546019042183, 2096490211801715020, 2081275874393225145, 2066180819490575526,
  2051202409468584786, 2036338080248769611, 2021585338318926173, 2006941757894518563,
  1992404978213576650, 1977972700957360441, 1963642687789548313, 1949412758007184943,
  1935280786297051359, 1921244700591528076, 1907302480018387536, 1893452152939308242,
  1879691795072211180, 1866019527692827973, 1852433515911175554, 1838931967018879954,
  1825513128903519799, 1812175288526390649, 1798916770460290859, 1785735935484126014,
  1772631179231305643, 1759600930889074766, 1746643651946074405, 1733757834985571566,
  1720942002521935299, 1708194705878057773, 1695514524101537912, 1682900062917553896,
  1670349953716452118, 1657862852574172763, 1645437439303723659, 1633072416535991334,
  1620766508828257901, 1608518461798858379, 1596327041286483395, 1584191032532688892,
  1572109239386229707, 1560080483527888084, 1548103603714513499, 1536177455041032092,
  1524300908219226258, 1512472848872117082, 1500692176842816750, 1488957805516746058,
  1477268661156133867, 1465623682245745352, 1454021818848793446, 1442462031972012504,
  1430943292938879674, 1419464582769983219, 1408024891569535697, 1396623217917042137,
  1385258568263121992, 1373929956328490576, 1362636402505086775, 1351376933258335189,
  1340150580529504643, 1328956381137116560, 1317793376176324749, 1306660610415174117,
  1295557131686601027, 1284481990275012642, 1273434238296241139, 1262412929069615330,
  1251417116480852521, 1240445854334406572, 1229498195693849105, 1218573192208790124,
  1207669893426761121, 1196787346088403092, 1185924593404202199, 1175080674310911677,
  1164254622705678921, 1153445466655774743, 1142652227581672841, 1131873919411078511,
  1121109547701330200, 1110358108727411031, 1099618588532597308, 1088889961938546813,
  1078171191511372307, 1067461226479967662, 1056759001602551429, 1046063435977044209,
  1035373431790528542, 1024687873002617211, 1014005623957096480, 1003325527915696735,
  992646405507275897, 981967053085062602, 971286240983903260, 960602711668666509,
  949915177764075969, 939222319955262286, 928522784747210395, 917815182070044311,
  907098082715690257, 896370015589889935, 885629464761751528, 874874866291025066,
  864104604811004484, 853317009842373353, 842510351810368485, 831682837734273206,
  820832606554411814, 809957724057418282, 799056177355487174, 788125868869492430,
  777164609759129710, 766170112735434672, 755139984181982249, 744071715500508102,
  732962673584365398, 721810090308756203, 710611050909655040, 699362481103231959,
  688061132773747808, 676703568029522584, 665286141392677943, 653804979847664947,
  642255960424536365, 630634684933490286, 618936451394876075, 607156221620300030,
  595288584291502887, 583327712748769489, 571267316532588332, 559100585511540626,
  546820125163310577, 534417881237165604, 521885051592135052, 509211982443654398,
  496388045518671162, 483401491653461857, 470239275082169006, 456886840931420235,
  443327866073552401, 429543940225410703, 415514169600356364, 401214678896277765,
  386617977941119573, 371692145329917234, 356399760258393816, 340696481064849122,
  324529117016909452, 307832954674932158, 290527955491230394, 272513185478464703,
  253658363385912022, 233790483059674731, 212671510630966620, 189958689622431842,
  165127622564187282, 137304980940012589, 104838507565818778, 63852163815001570,
  0]

def exponentialEdges : Array Float := exponentialEdgesDigits.map decimals

def exponentialDensitiesDigits : Array Nat := #[
  167066692307963, 454134353841497, 967269282327174, 1536299780301573,
  2145967743718907, 2788798793574076, 3460264777836904, 4157295120833797,
  4877655983542396, 5619642207205489, 6381905937319183, 7163353183634991,
  7963077438017043, 8780314985808977, 9614413642502212, 10464810181029981,
  11331013597834600, 12212592426255378, 13109164931254991, 14020391403181943,
  14945968011691148, 15885621839973156, 16839106826039941, 17806200410911355,
  18786700744696024, 19780424338009740, 20787204072578114, 21806887504283581,
  22839335406385240, 23884420511558174, 24942026419731787, 26012046645134221,
  27094383780955803, 28188948763978646, 29295660224637411, 30414443910466622,
  31545232172893622, 32687963508959555, 33842582150874358, 35009037697397431,
  36187284781931443, 37377282772959382, 38578995503074871, 39792391023374139,
  41017441380414840, 42254122413316254, 43502413568888197, 44762297732943289,
  46033761076175184, 47316792913181561, 48611385573379504, 49917534282706379,
  51235237055126281, 52564494593071685, 53905310196046080, 55257689676697030,
  56621641283742870, 57997175631200659, 59384305633420280, 60783046445479660,
  62193415408541036, 63615431999807376, 65049117786753805, 66494496385339816,
  67951593421936643, 69420436498728783, 70901055162371843, 72393480875708752,
  73897746992364746, 75413888734058410, 76941943170480517, 78481949201606435,
  80033947542319905, 81597980709237419, 83174093009632397, 84762330532368146,
  86362741140756927, 87975374467270231, 89600281910032886, 91237516631040197,
  92887133556043569, 94549189376055873, 96223742550432825, 97910853311492213,
  99610583670637132, 101322997425953631, 103048160171257702, 104786139306570145,
  106537004050001632, 108300825451033755, 110077676405185357, 111867631670056283,
  113670767882744286, 115487163578633506, 117316899211555525, 119160057175327641,
  121016721826674792, 122886979509545108, 124770918580830933, 126668629437510671,
  128580204545228199, 130505738468330773, 132445327901387494, 134399071702213602,
  136367070926428829, 138349428863580176, 140346251074862399, 142357645432472146,
  144383722160634720, 146424593878344889, 148480375643866735, 150551185001039839,
  152637142027442801, 154738369384468027, 156854992369365148, 158987138969314129,
  161134939917591952, 163298528751901734, 165478041874935922, 167673618617250081,
  169885401302527550, 172113535315319977, 174358169171353411, 176619454590494829,
  178897546572478278, 181192603475496261, 183504787097767436, 185834262762197083,
  188181199404254262, 190545769663195363, 192928149976771296, 195328520679563189,
  197747066105098818, 200183974691911210, 202639439093708962, 205113656293837654,
  207606827724221982, 210119159388988230, 212650861992978224, 215202151075378628,
  217773247148700472, 220364375843359439, 222975768058120111, 225607660116683956,
  228260293930716618, 230933917169627356, 233628783437433291, 236345152457059560,
  239083290262449094, 241843469398877131, 244625969131892024, 247431075665327543,
  250259082368862240, 253110290015629402, 255985007030415324, 258883549749016173,
  261806242689362922, 264753418835062149, 267725419932044739, 270722596799059967,
  273745309652802915, 276793928448517301, 279868833236972869, 282970414538780746,
  286099073737076826, 289255223489677693, 292439288161892630, 295651704281261252,
  298892921015581847, 302163400675693528, 305463619244590256, 308794066934560185,
  312155248774179606, 315547685227128949, 318971912844957239, 322428484956089223,
  325917972393556354, 329440964264136438, 332998068761809096, 336589914028677717,
  340217149066780189, 343880444704502575, 347580494621637148, 351318016437483449,
  355093752866787626, 358908472948750001, 362762973354817997, 366658079781514379,
  370594648435146223, 374573567615902381, 378595759409581067, 382662181496010056,
  386773829084137932, 390931736984797384, 395136981833290435, 399390684475231350,
  403694012530530555, 408048183152032673, 412454465997161457, 416914186433003209,
  421428728997616908, 425999541143034677, 430628137288459167, 435316103215636907,
  440065100842354173, 444876873414548846, 449753251162755330, 454696157474615836,
  459707615642138023, 464789756250426511, 469944825283960310, 475175193037377708,
  480483363930454543, 485871987341885248, 491343869594032867, 496901987241549881,
  502549501841348056, 508289776410643213, 514126393814748894, 520063177368233931,
  526104213983620062, 532253880263043655, 538516872002862246, 544898237672440056,
  551403416540641733, 558038282262587892, 564809192912400615, 571723048664826150,
  578787358602845359, 586010318477268366, 593400901691733762, 600968966365232560,
  608725382079622346, 616682180915207878, 624852738703666200, 633251994214366398,
  641896716427266423, 650805833414571433, 660000841079000145, 669506316731925177,
  679350572264765806, 689566496117078431, 700192655082788606, 711274760805076456,
  722867659593572465, 735038092431424039, 747868621985195658, 761463388849896838,
  775956852040116218, 791527636972496285, 808421651523009044, 826993296643051101,
  847785500623990496, 871704332381204705, 900469929925747703, 938143680862176477,
  1000000000000000000]

def exponentialDensities : Array Float := exponentialDensitiesDigits.map decimals

end VideoLink.Random
